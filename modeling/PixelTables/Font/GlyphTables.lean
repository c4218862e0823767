import PixelTables.Font.Fixed
import PixelTables.Font.Outline
import PixelTables.Font.Tables

namespace PixelTables.Font

open Binary (u16? u32? i16? slice?)

structure Frame where
  start : Point
  stop : Point
  top : Point
  bottom : Point
  deriving DecidableEq, Repr

namespace Frame

def points (f : Frame) : List Point := [f.start, f.stop, f.top, f.bottom]

def map (f : Point → Point) (frame : Frame) : Frame :=
  ⟨f frame.start, f frame.stop, f frame.top, f frame.bottom⟩

def zero : Frame :=
  let origin : Point := ⟨0, 0, false⟩
  ⟨origin, origin, origin, origin⟩

end Frame

/-- What fonts say about their glyphs. There are full metrics for the first `fullMetrics` glyphs, and
    one of two numbers for the others. -/
structure GlyphTables where
  glyphs : ByteArray
  places : ByteArray
  wide : Bool
  metrics : ByteArray
  fullMetrics : Nat
  ascent : Int
  descent : Int
  unitsPerEm : Nat
  roundsSize : Bool

/-- Looks the tables up. The first ones have to be there; if there are metrics, but too few, none of
    them counts. -/
def glyphTables? (f : Font) : Option GlyphTables := do
  let records ← f.directory?
  let head ← f.table? records "head" 54
  let glyphs ← f.table? records "glyf" 0
  let places ← f.table? records "loca" 0
  let hhea ← f.table? records "hhea" 36
  let maxp ← f.table? records "maxp" 6
  let version ← u32? maxp 0
  let unitsPerEm ← u16? head 18
  let flags ← u16? head 16
  let wide := (← u16? head 50) = 1
  let fullMetrics ← u16? hhea 34
  let metrics ← f.table? records "hmtx" 0
  let metrics := if metrics.size < 4 * fullMetrics then ByteArray.empty else metrics
  let reach := fun place => ((f.table? records "OS/2" 78).bind fun t => i16? t place).getD 0
  if version = 0x00010000 ∧ maxp.size < 28 then none
  else if places.size % (if wide then 4 else 2) ≠ 0 then none
  else
    some
      { glyphs, places, wide, metrics, fullMetrics, unitsPerEm
        ascent := reach 68
        descent := reach 70
        roundsSize := hasBit flags 8 }

namespace GlyphTables

def placeOf? (t : GlyphTables) (glyph : Nat) : Option Nat :=
  if t.wide then u32? t.places (4 * glyph) else (u16? t.places (2 * glyph)).map (· * 2)

def bytesOf? (t : GlyphTables) (glyph : Nat) : Option ByteArray := do
  let start ← t.placeOf? glyph
  let stop ← t.placeOf? (glyph + 1)
  if start = stop then some .empty
  else if start < stop then slice? t.glyphs start (stop - start)
  else none

def bearing (t : GlyphTables) (glyph : Nat) : Int :=
  let place := if glyph < t.fullMetrics then 4 * glyph + 2
    else 4 * t.fullMetrics + 2 * (glyph - t.fullMetrics)
  (i16? t.metrics place).getD 0

def advance (t : GlyphTables) (glyph : Nat) : Nat :=
  if t.fullMetrics = 0 then 0
  else (u16? t.metrics (4 * min glyph (t.fullMetrics - 1))).getD 0

def frame (t : GlyphTables) (glyph : Nat) (left : Int) : Frame :=
  let start := left - t.bearing glyph
  ⟨⟨start, 0, false⟩, ⟨start + t.advance glyph, 0, false⟩, ⟨0, t.ascent, false⟩,
    ⟨0, t.descent, false⟩⟩

end GlyphTables

end PixelTables.Font
