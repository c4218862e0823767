namespace PixelTables

structure Raster (α : Type) where
  width : Nat
  height : Nat
  samples : Array α
  size_samples : samples.size = width * height

namespace Raster

variable {α β : Type}

def get? (r : Raster α) (x y : Nat) : Option α :=
  if x < r.width ∧ y < r.height then r.samples[y * r.width + x]? else none

def ofFn (width height : Nat) (f : Nat → Nat → α) : Raster α where
  width
  height
  samples := Array.ofFn fun i : Fin (width * height) => f (i % width) (i / width)
  size_samples := by simp

def fill (width height : Nat) (a : α) : Raster α where
  width
  height
  samples := Array.replicate (width * height) a
  size_samples := by simp

def ofSamples? (width height : Nat) (samples : Array α) : Option (Raster α) :=
  if h : samples.size = width * height then some ⟨width, height, samples, h⟩ else none

def map (f : α → β) (r : Raster α) : Raster β where
  width := r.width
  height := r.height
  samples := r.samples.map f
  size_samples := by simp [r.size_samples]

theorem index_lt {w h x y : Nat} (hx : x < w) (hy : y < h) : y * w + x < w * h := by
  calc y * w + x < y * w + w := by omega
    _ = (y + 1) * w := by rw [Nat.succ_mul]
    _ ≤ h * w := Nat.mul_le_mul_right _ hy
    _ = w * h := Nat.mul_comm _ _

theorem get?_eq_none_iff (r : Raster α) (x y : Nat) :
    r.get? x y = none ↔ r.width ≤ x ∨ r.height ≤ y := by
  simp only [get?]
  by_cases h : x < r.width ∧ y < r.height
  · have := index_lt h.1 h.2
    simp [h, r.size_samples, this]
  · simp only [h, ↓reduceIte, true_iff]
    omega

theorem index_col {w x : Nat} (hx : x < w) (y : Nat) : (y * w + x) % w = x := by
  rw [Nat.mul_comm, Nat.mul_add_mod, Nat.mod_eq_of_lt hx]

theorem index_row {w x : Nat} (hx : x < w) (y : Nat) : (y * w + x) / w = y := by
  rw [Nat.mul_comm, Nat.mul_add_div (by omega), Nat.div_eq_of_lt hx, Nat.add_zero]

@[simp] theorem get?_ofFn (w h : Nat) (f : Nat → Nat → α) (x y : Nat) :
    (ofFn w h f).get? x y = if x < w ∧ y < h then some (f x y) else none := by
  by_cases inside : x < w ∧ y < h
  · have bound := index_lt inside.1 inside.2
    have col := index_col inside.1 y
    have row := index_row inside.1 y
    simp [get?, ofFn, inside, bound, col, row]
  · simp [get?, ofFn, inside]

@[simp] theorem get?_map (f : α → β) (r : Raster α) (x y : Nat) :
    (r.map f).get? x y = (r.get? x y).map f := by
  by_cases inside : x < r.width ∧ y < r.height <;> simp [get?, map, inside]

def at? (r : Raster α) (x y : Int) : Option α :=
  if 0 ≤ x ∧ 0 ≤ y then r.get? x.toNat y.toNat else none

/-- Puts `content` on `canvas` with its top left corner at `(x, y)`. Samples are replaced, and
    what falls outside is clipped. -/
def paste (canvas content : Raster α) (x y : Int) : Raster α where
  width := canvas.width
  height := canvas.height
  samples := canvas.samples.mapIdx fun i old =>
    (content.at? ((i % canvas.width : Nat) - x) ((i / canvas.width : Nat) - y)).getD old
  size_samples := by simp [canvas.size_samples]

theorem crop_index (r : Raster α) (x y : Nat) {width height : Nat}
    (i : Fin (min width (r.width - x) * min height (r.height - y))) :
    (y + i / min width (r.width - x)) * r.width + (x + i % min width (r.width - x))
      < r.samples.size := by
  obtain ⟨i, bound⟩ := i
  have columns : 0 < min width (r.width - x) := Nat.pos_of_mul_pos_right (Nat.zero_lt_of_lt bound)
  have col : i % min width (r.width - x) < min width (r.width - x) := Nat.mod_lt _ columns
  have row : i / min width (r.width - x) < min height (r.height - y) :=
    (Nat.div_lt_iff_lt_mul columns).mpr (by rw [Nat.mul_comm]; exact bound)
  rw [r.size_samples]
  apply index_lt
  · generalize i % min width (r.width - x) = column at col
    show x + column < r.width
    omega
  · generalize i / min width (r.width - x) = line at row
    show y + line < r.height
    omega

def crop (r : Raster α) (x y width height : Nat) : Raster α :=
  let columns := min width (r.width - x)
  let rows := min height (r.height - y)
  { width := columns
    height := rows
    samples := Array.ofFn fun i : Fin (columns * rows) =>
      have inside := crop_index r x y i
      r.samples[(y + i / columns) * r.width + (x + i % columns)]
    size_samples := by simp }

end Raster

structure Rgba where
  red : UInt8
  green : UInt8
  blue : UInt8
  alpha : UInt8
  deriving DecidableEq, Repr, Inhabited

def Rgba.transparent : Rgba := ⟨0, 0, 0, 0⟩

end PixelTables
