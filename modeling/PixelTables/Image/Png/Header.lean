import PixelTables.Binary.Numbers

namespace PixelTables.Image.Png

inductive Color where
  | gray
  | rgb
  | indexed
  | grayAlpha
  | rgba
  deriving DecidableEq, Repr

namespace Color

def ofCode? : Nat → Option Color
  | 0 => some .gray
  | 2 => some .rgb
  | 3 => some .indexed
  | 4 => some .grayAlpha
  | 6 => some .rgba
  | _ => none

def channels : Color → Nat
  | .gray | .indexed => 1
  | .grayAlpha => 2
  | .rgb => 3
  | .rgba => 4

def depths : Color → List Nat
  | .gray => [1, 2, 4, 8, 16]
  | .indexed => [1, 2, 4, 8]
  | .rgb | .grayAlpha | .rgba => [8, 16]

end Color

structure Header where
  width : Nat
  height : Nat
  depth : Nat
  color : Color
  interlaced : Bool
  deriving DecidableEq, Repr

namespace Header

def ofBytes? (bytes : ByteArray) : Option Header := do
  let width ← Binary.u32? bytes 0
  let height ← Binary.u32? bytes 4
  let depth ← bytes[8]?
  let color ← bytes[9]?.bind fun code => Color.ofCode? code.toNat
  let compression ← bytes[10]?
  let filter ← bytes[11]?
  let interlace ← bytes[12]?
  if bytes.size = 13 ∧ 0 < width ∧ 0 < height ∧ depth.toNat ∈ color.depths ∧ compression = 0
      ∧ filter = 0 ∧ interlace ≤ 1 then
    some ⟨width, height, depth.toNat, color, interlace = 1⟩
  else none

def bitsPerPixel (h : Header) : Nat := h.depth * h.color.channels

def stride (h : Header) : Nat := max 1 (h.bitsPerPixel / 8)

def rowBytes (h : Header) (columns : Nat) : Nat := (columns * h.bitsPerPixel + 7) / 8

end Header

/-- Every `dx`-th pixel from column `x` on, of every `dy`-th row from row `y` on. -/
structure Pass where
  x : Nat
  y : Nat
  dx : Nat
  dy : Nat
  deriving DecidableEq, Repr

namespace Pass

def all : Pass := ⟨0, 0, 1, 1⟩

def interlaced : List Pass :=
  [⟨0, 0, 8, 8⟩, ⟨4, 0, 8, 8⟩, ⟨0, 4, 4, 8⟩, ⟨2, 0, 4, 4⟩, ⟨0, 2, 2, 4⟩, ⟨1, 0, 2, 2⟩, ⟨0, 1, 1, 2⟩]

def columns (p : Pass) (width : Nat) : Nat := (width - p.x + p.dx - 1) / p.dx

def rows (p : Pass) (height : Nat) : Nat := (height - p.y + p.dy - 1) / p.dy

def position? (p : Pass) (x y : Nat) : Option (Nat × Nat) :=
  if p.x ≤ x ∧ p.y ≤ y ∧ (x - p.x) % p.dx = 0 ∧ (y - p.y) % p.dy = 0 then
    some ((x - p.x) / p.dx, (y - p.y) / p.dy)
  else none

end Pass

def Header.passes (h : Header) : List Pass :=
  (if h.interlaced then Pass.interlaced else [.all]).filter fun p =>
    p.columns h.width ≠ 0 ∧ p.rows h.height ≠ 0

end PixelTables.Image.Png
