namespace PixelTables.Binary

def number? (bytes : ByteArray) (place : Nat) : Nat → Option Nat
  | 0 => some 0
  | count + 1 => do
    let high ← number? bytes place count
    let low ← bytes[place + count]?
    some (high * 256 + low.toNat)

def u16? (bytes : ByteArray) (place : Nat) : Option Nat := number? bytes place 2

def u32? (bytes : ByteArray) (place : Nat) : Option Nat := number? bytes place 4

def i16? (bytes : ByteArray) (place : Nat) : Option Int :=
  (u16? bytes place).map fun n => Int.bmod n UInt16.size

def i8? (bytes : ByteArray) (place : Nat) : Option Int := bytes[place]?.map (·.toInt8.toInt)

def slice? (bytes : ByteArray) (place length : Nat) : Option ByteArray :=
  if place + length ≤ bytes.size then some (bytes.extract place (place + length)) else none

def tag (name : String) : Nat := name.toList.foldl (fun n c => n * 256 + c.toNat) 0

end PixelTables.Binary
