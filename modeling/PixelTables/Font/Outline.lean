import PixelTables.Binary.Numbers

namespace PixelTables.Font

open Binary (u16? i16?)

structure Point where
  x : Int
  y : Int
  onCurve : Bool
  deriving DecidableEq, Repr

namespace Point

def map (f : Int → Int) (p : Point) : Point := { p with x := f p.x, y := f p.y }

def move (dx dy : Int) (p : Point) : Point := { p with x := p.x + dx, y := p.y + dy }

end Point

structure Outline where
  points : Array Point
  ends : List Nat
  deriving DecidableEq, Repr

namespace Outline

def empty : Outline := ⟨#[], []⟩

def map (f : Point → Point) (o : Outline) : Outline := { o with points := o.points.map f }

def isOrdered (o : Outline) : Bool :=
  ((o.ends.zip o.ends.tail).all fun (a, b) => a < b) &&
    o.ends.all fun last => last < o.points.size && last < UInt16.size

end Outline

/-- Why a glyph has no outline. A flag of a point beyond the last one is worse than any damage, for
    the program ends there and then. -/
inductive Flaw where
  | damaged
  | surplusPoint
  deriving DecidableEq, Repr

def sound {α : Type} : Option α → Except Flaw α
  | some a => .ok a
  | none => .error .damaged

def hasBit (n bit : Nat) : Bool := n / bit % 2 = 1

namespace SimpleGlyph

def flags (bytes : ByteArray) : Nat → Nat → Nat → Option (List Nat × Nat)
  | 0, _, _ => none
  | fuel + 1, count, place =>
    if count = 0 then some ([], place)
    else do
      let flag ← bytes[place]?
      let flag := flag.toNat
      if hasBit flag 8 then
        let more ← bytes[place + 1]?
        let run := min (more.toNat + 1) count
        let (rest, place) ← flags bytes fuel (count - run) (place + 2)
        some (List.replicate run flag ++ rest, place)
      else
        let (rest, place) ← flags bytes fuel (count - 1) (place + 1)
        some (flag :: rest, place)

/-- Reads one coordinate of every point, given as the distance from the point before: in a byte
    whose sign is in the flag, in two bytes, or not at all. -/
def coordinates (bytes : ByteArray) (short same : Nat) :
    List Nat → Nat → Int → Option (List Int × Nat)
  | [], place, _ => some ([], place)
  | flag :: rest, place, last => do
    let (delta, next) ←
      if hasBit flag short then
        bytes[place]?.map fun d => ((if hasBit flag same then (d.toNat : Int) else -d.toNat), place + 1)
      else if hasBit flag same then some (0, place)
      else (i16? bytes place).map fun d => (d, place + 2)
    let value := last + delta
    let (values, place) ← coordinates bytes short same rest next value
    some (value :: values, place)

def contourEnds (bytes : ByteArray) (count : Nat) : List Nat :=
  ((List.range count).mapM fun i => u16? bytes (10 + 2 * i)).getD []

def pointCount (ends : List Nat) : Nat :=
  match ends.getLast? with
  | some last => last + 1
  | none => 0

def dataPlace (bytes : ByteArray) (count : Nat) : Nat :=
  12 + 2 * count + (u16? bytes (10 + 2 * count)).getD 0

def points? (bytes : ByteArray) (count place : Nat) : Option (Array Point) := do
  let (flags, place) ← flags bytes (count + 1) count place
  let (xs, place) ← coordinates bytes 2 16 flags place 0
  let (ys, _) ← coordinates bytes 4 32 flags place 0
  let joined := (flags.zip (xs.zip ys)).map fun (flag, x, y) => Point.mk x y (hasBit flag 1)
  some joined.toArray

/-- Reads the data of no points: there are none, or a flag that is never used. -/
def noPoints (bytes : ByteArray) (place : Nat) : Except Flaw Outline :=
  match bytes[place]? with
  | none => .ok .empty
  | some flag =>
    if !hasBit flag.toNat 8 then .error .surplusPoint
    else if place + 1 < bytes.size then .ok .empty
    else .error .damaged

def read (bytes : ByteArray) (contours : Nat) : Except Flaw Outline :=
  let ends := contourEnds bytes contours
  let place := dataPlace bytes contours
  match pointCount ends with
  | 0 => noPoints bytes place
  | count + 1 => (sound (points? bytes (count + 1) place)).map fun points => ⟨points, ends⟩

end SimpleGlyph

end PixelTables.Font
