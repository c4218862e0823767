import PixelTables.Binary.Numbers

namespace PixelTables.Image.Png

/-- How the bytes of a row were made smaller: less the byte to the left, the one above, the mean of
    both, or the neighbour nearest to their plane. -/
inductive Filter where
  | none
  | left
  | above
  | mean
  | nearest
  deriving DecidableEq, Repr

namespace Filter

def ofCode? : Nat → Option Filter
  | 0 => some .none
  | 1 => some .left
  | 2 => some .above
  | 3 => some .mean
  | 4 => some .nearest
  | _ => Option.none

/-- Of three neighbours the one nearest to `left + above - corner`; ties go to the left, then to
    the one above. -/
def nearestOf (left above corner : UInt8) : UInt8 :=
  let plane : Int := (left.toNat : Int) + above.toNat - corner.toNat
  let toLeft := (plane - left.toNat).natAbs
  let toAbove := (plane - above.toNat).natAbs
  let toCorner := (plane - corner.toNat).natAbs
  if toLeft ≤ toAbove ∧ toLeft ≤ toCorner then left
  else if toAbove ≤ toCorner then above
  else corner

def predict (f : Filter) (left above corner : UInt8) : UInt8 :=
  match f with
  | .none => 0
  | .left => left
  | .above => above
  | .mean => ((left.toNat + above.toNat) / 2).toUInt8
  | .nearest => nearestOf left above corner

def undo (f : Filter) (stride : Nat) (upper row : ByteArray) : ByteArray :=
  row.data.foldl (fun out byte =>
    let i := out.size
    let left := if i < stride then 0 else out[i - stride]?.getD 0
    let corner := if i < stride then 0 else upper[i - stride]?.getD 0
    out.push (byte + f.predict left (upper[i]?.getD 0) corner)) .empty

end Filter

def readRows (bytes : ByteArray) (stride length : Nat) :
    Nat → Nat → ByteArray → Option (List ByteArray × Nat)
  | 0, place, _ => some ([], place)
  | count + 1, place, upper => do
    let filter ← bytes[place]?.bind fun code => Filter.ofCode? code.toNat
    let raw ← Binary.slice? bytes (place + 1) length
    let row := filter.undo stride upper raw
    let (rest, place) ← readRows bytes stride length count (place + 1 + length) row
    some (row :: rest, place)

def sample? (depth : Nat) (row : ByteArray) (index : Nat) : Option Nat :=
  if depth = 16 then Binary.u16? row (2 * index)
  else row[index * depth / 8]?.map fun byte =>
    byte.toNat >>> (8 - depth - index * depth % 8) % 1 <<< depth

end PixelTables.Image.Png
