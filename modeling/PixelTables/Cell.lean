import PixelTables.Raster

namespace PixelTables

abbrev Cell := Raster UInt32

namespace Raster

variable {α : Type}

def row? (r : Raster α) (y : Nat) : Option (Array α) :=
  if y * r.width + r.width ≤ r.samples.size then
    some (r.samples.extract (y * r.width) (y * r.width + r.width))
  else none

def rows (r : Raster α) : List (Array α) :=
  if r.width = 0 then [] else (List.range r.height).filterMap r.row?

theorem row?_isSome_of_lt (r : Raster α) {y : Nat} (h : y < r.height) : (r.row? y).isSome := by
  have : y * r.width + r.width ≤ r.samples.size := by
    rw [r.size_samples, ← Nat.succ_mul, Nat.mul_comm r.width]
    exact Nat.mul_le_mul_right _ h
  simp [row?, this]

end Raster

end PixelTables
