import PixelTables.Canvas
import PixelTables.Glyph.Geometry
import PixelTables.Text.Quoted

namespace PixelTables

/-- The coverage of one glyph. The ink starts `left` pixels right of the pen and `top` pixels
    above the baseline; nothing is known about the number of samples. -/
structure GlyphMask where
  left : Int
  top : Int
  width : Nat
  height : Nat
  samples : Array UInt8
  deriving DecidableEq, Repr, Inhabited

def GlyphMask.empty : GlyphMask := ⟨0, 0, 0, 0, #[]⟩

inductive GlyphError where
  | unsupported (ch : Char)
  | renderFailed (ch : Char)
  | malformedMask (ch : Char)
  | canvasTooLarge
  deriving DecidableEq, Repr

def GlyphError.message : GlyphError → String
  | .unsupported ch => "no glyph for " ++ Text.quotedChar ch
  | .renderFailed ch => "font driver failed to render " ++ Text.quotedChar ch
  | .malformedMask ch => "malformed coverage mask for " ++ Text.quotedChar ch
  | .canvasTooLarge => s!"cell plus padding exceeds {maxCanvasSide} pixels per side"

/-- Renders characters at a number of pixels per em; what it answers may depend on, and change,
    its state. -/
def GlyphSource (σ : Type) : Type := Char → Float32 → σ → Except GlyphError GlyphMask × σ

namespace GlyphSource

variable {σ : Type}

def recorded (source : GlyphSource σ) : GlyphSource (σ × List (Char × Float32)) :=
  fun ch size (s, calls) =>
    let (answer, s) := source ch size s
    (answer, s, calls ++ [(ch, size)])

end GlyphSource

namespace Geometry

def blank (g : Geometry) : Raster UInt8 := .fill g.cellWidth.toNat g.cellHeight.toNat 0

/-- Draws the ink of a mask on the padded surface with its box centred in the cell, and cuts the
    cell out. Ink beyond the cell is lost and does not move the rest. -/
def drawInk (g : Geometry) (canvas : UInt32 × UInt32) (left top : Int) (ink : Raster UInt8) :
    Raster UInt8 :=
  let penX := centeredOffset g.cellWidth.toNat ink.width - left
  let penY := centeredOffset g.cellHeight.toNat ink.height + top
  let pad := g.padding.toNat
  let surface := Raster.fill canvas.1.toNat canvas.2.toNat 0
  (surface.paste ink (pad + penX + left) (pad + penY - top)).crop pad pad
    g.cellWidth.toNat g.cellHeight.toNat

def rasterize {σ : Type} (g : Geometry) (source : GlyphSource σ) (ch : Char) (s : σ) :
    Except GlyphError (Raster UInt8) × σ :=
  match g.canvasSize? with
  | none => (.error .canvasTooLarge, s)
  | some canvas => match source ch g.fontSize s with
    | (.error why, s) => (.error why, s)
    | (.ok mask, s) => match Raster.ofSamples? mask.width mask.height mask.samples with
      | none => (.error (.malformedMask ch), s)
      | some ink => (.ok (g.drawInk canvas mask.left mask.top ink), s)

end Geometry

end PixelTables
