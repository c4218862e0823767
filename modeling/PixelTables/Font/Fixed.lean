namespace PixelTables.Font

/-- A product with a factor that counts 65536ths, rounded to the nearest integer; halves go away
    from zero. -/
def scaleBy (factor v : Int) : Int :=
  let product := v * factor
  if product < 0 then (product + 0x7FFF) / 0x10000 else (product + 0x8000) / 0x10000

/-- The factor that takes `whole` to `part`, rounded to the nearest; its last 32 bits are kept. -/
def ratio (part whole : Nat) : Int :=
  Int.bmod ((part * 0x10000 + whole / 2) / whole : Nat) UInt32.size

def wholePixel (v : Int) : Int := (v + 32) / 64 * 64

/-- About the length of the arrow `(a, b)`: its longer side and three eighths of the shorter one. -/
def arrowLength (a b : Int) : Int :=
  let a := a.natAbs
  let b := b.natAbs
  (max a b + 3 * min a b / 8 : Nat)

def middle (a b : Int) : Int := (a + b).tdiv 2

end PixelTables.Font
