import PixelTables.Font.Curve
import PixelTables.Raster

namespace PixelTables.Font

/-- Positions count 256ths of a pixel, and rows count upward. -/
def onePixel : Int := 256

/-- What a piece of a contour inside one pixel adds: `cover` is how far it climbs, and `area` twice
    the area between it and the left side of the pixel. -/
structure Trace where
  column : Int
  row : Int
  cover : Int
  area : Int
  deriving DecidableEq, Repr

def Trace.piece (column row x₀ y₀ x₁ y₁ : Int) : Trace :=
  ⟨column, row, y₁ - y₀, (y₁ - y₀) * (x₀ + x₁)⟩

namespace Line

/-- The state of a walk along a line from pixel to pixel: the pixel, where in it the walk is, and
    the product that tells on which side of the line the corners of the pixel lie. -/
structure Walk where
  column : Int
  row : Int
  x : Int
  y : Int
  product : Int
  deriving DecidableEq, Repr

/-- A quotient of two positive numbers by way of a reciprocal of 24 binary places, which may leave it
    one too small. -/
def quotient (a b : Int) : Int := a * (0xFFFFFF / b) / 0x1000000

def leave (dx dy : Int) (w : Walk) : Trace × Walk :=
  let piece := Trace.piece w.column w.row w.x w.y
  if w.product ≤ 0 ∧ w.product - dx * onePixel > 0 then
    let y := quotient (-w.product) (-dx)
    (piece 0 y, ⟨w.column - 1, w.row, onePixel, y, w.product - dy * onePixel⟩)
  else if w.product - dx * onePixel ≤ 0 ∧ w.product - dx * onePixel + dy * onePixel > 0 then
    let product := w.product - dx * onePixel
    let x := quotient (-product) dy
    (piece x onePixel, ⟨w.column, w.row + 1, x, 0, product⟩)
  else if w.product - dx * onePixel + dy * onePixel ≤ 0 ∧ w.product + dy * onePixel ≥ 0 then
    let product := w.product + dy * onePixel
    let y := quotient product dx
    (piece onePixel y, ⟨w.column + 1, w.row, 0, y, product⟩)
  else
    let x := quotient w.product (-dy)
    (piece x 0, ⟨w.column, w.row - 1, x, onePixel, w.product + dx * onePixel⟩)

def walk (dx dy column row x y : Int) : Nat → Walk → List Trace
  | 0, w => [.piece w.column w.row w.x w.y x y]
  | fuel + 1, w =>
    if w.column = column ∧ w.row = row then [.piece w.column w.row w.x w.y x y]
    else
      let (trace, w) := leave dx dy w
      trace :: walk dx dy column row x y fuel w

def climb (row x y : Int) : Nat → Walk → List Trace
  | 0, w => [.piece w.column w.row w.x w.y x y]
  | fuel + 1, w =>
    if w.row = row then [.piece w.column w.row w.x w.y x y]
    else if w.row < row then
      .piece w.column w.row w.x w.y w.x onePixel
        :: climb row x y fuel { w with row := w.row + 1, y := 0 }
    else
      .piece w.column w.row w.x w.y w.x 0
        :: climb row x y fuel { w with row := w.row - 1, y := onePixel }

def traces (a b : Spot) : List Trace :=
  let dx := b.x - a.x
  let dy := b.y - a.y
  let column := b.x / onePixel
  let row := b.y / onePixel
  let x := b.x % onePixel
  let y := b.y % onePixel
  let w : Walk := ⟨a.x / onePixel, a.y / onePixel, a.x % onePixel, a.y % onePixel,
    dx * (a.y % onePixel) - dy * (a.x % onePixel)⟩
  let steps := (column - w.column).natAbs + (row - w.row).natAbs
  if w.column = column ∧ w.row = row then [.piece column row w.x w.y x y]
  else if dy = 0 then []
  else if dx = 0 then climb row x y steps w
  else walk dx dy column row x y (steps + 1) w

end Line

namespace Curve

def bend (a control b : Spot) : Nat :=
  max (a.x + b.x - 2 * control.x).natAbs (a.y + b.y - 2 * control.y).natAbs

/-- How often to halve a curve until its pieces are straight within a sixteenth of a pixel. Every
    halving makes the bend a quarter of what it was. -/
def halvings : Nat → Nat → Nat
  | 0, _ => 0
  | fuel + 1, bend => if 64 < bend then halvings fuel (bend / 4) + 1 else 0

def pieces : Nat → Spot → Spot → Spot → List Spot
  | 0, _, _, b => [b]
  | depth + 1, a, control, b =>
    let first : Spot := ⟨(a.x + control.x) / 2, (a.y + control.y) / 2⟩
    let second : Spot := ⟨(control.x + b.x) / 2, (control.y + b.y) / 2⟩
    let middle : Spot :=
      ⟨(a.x + 2 * control.x + b.x) / 4, (a.y + 2 * control.y + b.y) / 4⟩
    pieces depth a first middle ++ pieces depth middle second b

def ends (a control b : Spot) : List Spot :=
  let bend := bend a control b
  pieces (halvings bend bend) a control b

end Curve

def Stroke.ends (a : Spot) : Stroke → List Spot
  | .line stop => [stop]
  | .curve control stop => Curve.ends a control stop

def polyline : Spot → List Spot → List Trace
  | _, [] => []
  | a, b :: rest => Line.traces a b ++ polyline b rest

def strokeTraces : Spot → List Stroke → List Trace
  | _, [] => []
  | a, stroke :: rest =>
    let ends := stroke.ends a
    polyline a ends ++ strokeTraces (ends.getLastD a) rest

def Contour.traces (c : Contour) : List Trace := strokeTraces c.start c.strokes

/-- The coverage of an area in 512ths of a 256th, without regard to its sign; a pixel is covered
    once at most. -/
def coverageOf (area : Int) : UInt8 :=
  let shifted := area / 512
  let size := if shifted < 0 then -shifted - 1 else shifted
  if 256 ≤ size then 255 else size.toNat.toUInt8

def addTrace (width height : Nat) (sums : Array (Int × Int)) (t : Trace) : Array (Int × Int) :=
  if 0 ≤ t.column ∧ t.column < (width : Int) ∧ 0 ≤ t.row ∧ t.row < (height : Int) then
    sums.modify (t.row.toNat * width + t.column.toNat) fun (cover, area) =>
      (cover + t.cover, area + t.area)
  else sums

def gather (width height : Nat) (traces : List Trace) : Array (Int × Int) :=
  traces.foldl (addTrace width height) (Array.replicate (width * height) (0, 0))

/-- The coverage of the pixels of a row. What was climbed in columns to the left counts for the
    whole width of a pixel. -/
def rowCoverage : Int → List (Int × Int) → List UInt8
  | _, [] => []
  | climbed, (cover, area) :: rest =>
    let climbed := climbed + cover * (2 * onePixel)
    coverageOf (climbed - area) :: rowCoverage climbed rest

def coverage (width height : Nat) (contours : List Contour) : Array UInt8 :=
  let sums := gather width height (contours.flatMap Contour.traces)
  ((List.range height).reverse.flatMap fun row =>
    rowCoverage 0 (sums.extract (row * width) ((row + 1) * width)).toList).toArray

end PixelTables.Font
