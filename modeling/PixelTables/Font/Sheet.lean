import PixelTables.Font.Component
import PixelTables.Font.GlyphTables

namespace PixelTables.Font

def overwrite (points : Array Point) : Nat → List Point → Array Point
  | _, [] => points
  | place, p :: rest => overwrite (points.setIfInBounds place p) (place + 1) rest

/-- A sheet of points. The first `used` ones belong to the glyph, with contours that end with the
    points `ends`. What is behind them is left over, and may still be referred to. -/
structure Sheet where
  points : Array Point
  used : Nat
  ends : List Nat
  frame : Frame
  deriving DecidableEq, Repr

namespace Sheet

def blank (size : Nat) : Sheet := ⟨Array.replicate size ⟨0, 0, false⟩, 0, [], .zero⟩

def add (s : Sheet) (o : Outline) (frame : Frame) : Sheet where
  points := overwrite s.points s.used (o.points.toList ++ frame.points)
  used := s.used + o.points.size
  ends := s.ends ++ o.ends.map (s.used + ·)
  frame := frame

def change (s : Sheet) (start : Nat) (f : Point → Point) : Sheet :=
  { s with points := s.points.mapIdx fun i p => if start ≤ i ∧ i < s.used then f p else p }

def outline (s : Sheet) : Outline := ⟨s.points.extract 0 s.used, s.ends⟩

end Sheet

def scaled (factor : Option Int) (v : Int) : Int :=
  match factor with
  | some factor => scaleBy factor v
  | none => v

namespace Component

/-- How far a component is moved whose points are on the sheet from `start` on. It is a part of the
    glyph from `base` on. -/
def shift? (factor : Option Int) (c : Component) (s : Sheet) (base start : Nat) :
    Option (Int × Int) :=
  match c.placement with
  | .moved x y =>
    let (x, y) := match c.scalesOffset, c.stretch with
      | true, some stretch => stretch.steps x y
      | _, _ => (x, y)
    let y := scaled factor y
    some (scaled factor x, if c.roundsY && factor.isSome then wholePixel y else y)
  | .joined a b => do
    let p ← s.points[base + a]?
    let q ← s.points[start + b]?
    some (p.x - q.x, p.y - q.y)

def addAll (factor : Option Int) (load : Nat → Sheet → Except Flaw Sheet) (base : Nat) :
    List Component → Sheet → Except Flaw Sheet
  | [], s => .ok s
  | c :: rest, s => do
    let loaded ← load c.glyph s
    let framed := if c.givesMetrics then loaded else { loaded with frame := s.frame }
    let stretched := framed.change s.used c.stretched
    let (dx, dy) ← sound (c.shift? factor stretched base s.used)
    addAll factor load base rest (stretched.change s.used (Point.move dx dy))

end Component

end PixelTables.Font
