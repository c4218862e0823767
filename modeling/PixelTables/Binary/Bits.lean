namespace PixelTables.Binary

/-- A place between two bits of some bytes. The least significant bit of a byte comes first. -/
structure Bits where
  bytes : ByteArray
  place : Nat

namespace Bits

def start (bytes : ByteArray) : Bits := ⟨bytes, 0⟩

def left (b : Bits) : Nat := b.bytes.size * 8 - b.place

def next (b : Bits) : Option (Nat × Bits) :=
  b.bytes[b.place / 8]?.map fun byte =>
    ((byte.toNat >>> (b.place % 8)) % 2, { b with place := b.place + 1 })

def number (b : Bits) : Nat → Option (Nat × Bits)
  | 0 => some (0, b)
  | count + 1 => do
    let (low, b) ← b.next
    let (high, b) ← b.number count
    some (low + 2 * high, b)

def aligned (b : Bits) : Bits := { b with place := (b.place + 7) / 8 * 8 }

def wholeBytes (b : Bits) (count : Nat) : Option (ByteArray × Bits) :=
  let first := b.aligned.place / 8
  if first + count ≤ b.bytes.size then
    some (b.bytes.extract first (first + count), { b with place := (first + count) * 8 })
  else none

end Bits

end PixelTables.Binary
