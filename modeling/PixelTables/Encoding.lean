import PixelTables.Cell

namespace PixelTables

/-- The word of an icon pixel that is not drawn. Words of drawn pixels have an empty high byte,
    so none of them is this one. -/
def transparentWord : UInt32 := 0xFF000000

inductive GlyphEncoding where
  | binary (threshold : UInt8)
  | intensity
  deriving DecidableEq, Repr, Inhabited

namespace GlyphEncoding

def word : GlyphEncoding → UInt8 → UInt32
  | .binary threshold, coverage => if threshold ≤ coverage then 1 else 0
  | .intensity, coverage => coverage.toUInt32

def encode (e : GlyphEncoding) (coverage : Raster UInt8) : Cell := coverage.map e.word

end GlyphEncoding

structure IconEncoding where
  alphaCutoff : UInt8
  deriving DecidableEq, Repr, Inhabited

namespace IconEncoding

def word (e : IconEncoding) (p : Rgba) : UInt32 :=
  if p.alpha < e.alphaCutoff then transparentWord
  else p.red.toUInt32 <<< 16 ||| p.green.toUInt32 <<< 8 ||| p.blue.toUInt32

def encode (e : IconEncoding) (image : Raster Rgba) : Cell := image.map e.word

end IconEncoding

end PixelTables
