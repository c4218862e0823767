import PixelTables.Disk.Basic
import PixelTables.Failure
import PixelTables.Font.CharacterMap
import PixelTables.Font.Composition
import PixelTables.Font.Coverage
import PixelTables.Glyph.Basic

namespace PixelTables

namespace Font

def wholePart (x : Float32) : Nat := min x.toUInt32.toNat 0x7FFFFFFF

/-- The factor from font units to sixty-fourths of a pixel. A size that is not positive leaves units
    as they are. Some fonts want whole sizes. -/
def GlyphTables.factor (t : GlyphTables) (size : Float32) : Option Int :=
  if size > 0 ∧ t.unitsPerEm ≠ 0 then
    let wanted := if t.roundsSize then (wholePart (size * 64 + 0.5) + 32) / 64 * 64
      else wholePart (size * 64)
    some (ratio wanted t.unitsPerEm)
  else none

def contours (f : Font) (glyph : Nat) (size : Float32) : Except Flaw (List Contour) := do
  let tables ← sound f.glyphTables?
  let outline ← tables.outline (tables.factor size) glyph
  .ok outline.contours

def box? (spots : List Spot) : Option (Int × Int × Int × Int) := do
  let xs := spots.map (·.x)
  let ys := spots.map (·.y)
  let left ← xs.min?
  let bottom ← ys.min?
  let right ← xs.max?
  let top ← ys.max?
  some (left / 64, bottom / 64, (right + 63) / 64, (top + 63) / 64)

def mask (contours : List Contour) : GlyphMask :=
  match box? (contours.flatMap Contour.spots) with
  | none => .empty
  | some (left, bottom, right, top) =>
    let width := (right - left).toNat
    let height := (top - bottom).toNat
    if width = 0 ∨ height = 0 then .empty
    else
      let placed := contours.map (·.map fun s => ⟨(s.x - left * 64) * 4, (s.y - bottom * 64) * 4⟩)
      ⟨left, top, width, height, coverage width height placed⟩

def render (f : Font) (ch : Char) (size : Float32) : Except GlyphError GlyphMask :=
  let glyph := f.glyphOf ch
  if glyph = 0 then .error (.unsupported ch)
  else match f.contours glyph size with
    | .ok contours => .ok (mask contours)
    | .error _ => .error (.renderFailed ch)

def breaksDown (f : Font) (ch : Char) (size : Float32) : Bool :=
  let glyph := f.glyphOf ch
  glyph ≠ 0 && match f.contours glyph size with
    | .error .surplusPoint => true
    | _ => false

def source : GlyphSource Font := fun ch size f => (f.render ch size, f)

def load (d : Disk) (p : Path) : Except Failure Font :=
  match d.readBytes p with
  | .error _ => .error (.font p .unreadable)
  | .ok bytes => match ofBytes? bytes with
    | some f => .ok f
    | none => .error (.font p .notAFont)

end Font

end PixelTables
