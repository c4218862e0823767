import PixelTables.Font.Fixed
import PixelTables.Font.Outline

namespace PixelTables.Font

structure Spot where
  x : Int
  y : Int
  deriving DecidableEq, Repr

namespace Spot

def middle (a b : Spot) : Spot := ⟨Font.middle a.x b.x, Font.middle a.y b.y⟩

def map (f : Int → Int) (s : Spot) : Spot := ⟨f s.x, f s.y⟩

end Spot

def Point.spot (p : Point) : Spot := ⟨p.x, p.y⟩

inductive Stroke where
  | line (stop : Spot)
  | curve (control stop : Spot)
  deriving DecidableEq, Repr

namespace Stroke

def spots : Stroke → List Spot
  | .line stop => [stop]
  | .curve control stop => [control, stop]

def map (f : Spot → Spot) : Stroke → Stroke
  | .line stop => .line (f stop)
  | .curve control stop => .curve (f control) (f stop)

end Stroke

structure Contour where
  start : Spot
  strokes : List Stroke
  deriving DecidableEq, Repr

namespace Contour

def spots (c : Contour) : List Spot := c.start :: c.strokes.flatMap Stroke.spots

def map (f : Spot → Spot) (c : Contour) : Contour := ⟨f c.start, c.strokes.map (Stroke.map f)⟩

/-- The strokes through points and back to the start. Two control points in a row have a point of
    the curve in their middle; `control` is one that waits for the next point. -/
def strokesThrough (start : Spot) : Option Spot → List Point → List Stroke
  | none, [] => [.line start]
  | some control, [] => [.curve control start]
  | none, p :: rest =>
    if p.onCurve then .line p.spot :: strokesThrough start none rest
    else strokesThrough start (some p.spot) rest
  | some control, p :: rest =>
    if p.onCurve then .curve control p.spot :: strokesThrough start none rest
    else .curve control (control.middle p.spot) :: strokesThrough start (some p.spot) rest

def ofPoints? (points : List Point) : Option Contour := do
  let first ← points.head?
  let last ← points.getLast?
  if first.onCurve then some ⟨first.spot, strokesThrough first.spot none points.tail⟩
  else if last.onCurve then some ⟨last.spot, strokesThrough last.spot none points.dropLast⟩
  else
    let start := first.spot.middle last.spot
    some ⟨start, strokesThrough start none points⟩

end Contour

def Outline.split (points : Array Point) : Nat → List Nat → List (List Point)
  | _, [] => []
  | start, last :: rest =>
    (points.extract start (last + 1)).toList :: split points (last + 1) rest

def Outline.contours (o : Outline) : List Contour :=
  (Outline.split o.points 0 o.ends).filterMap Contour.ofPoints?

end PixelTables.Font
