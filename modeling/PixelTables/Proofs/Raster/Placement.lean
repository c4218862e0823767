import PixelTables.Raster
import Mathlib.Algebra.Order.Group.Unbundled.Int
import Mathlib.Tactic.Lift

namespace PixelTables.Raster

variable {α : Type}

theorem exists_get? (r : Raster α) {x y : Nat} (beside : x < r.width) (below : y < r.height) :
    ∃ a, r.get? x y = some a := by
  rw [← Option.isSome_iff_exists, Option.isSome_iff_ne_none, ne_eq, get?_eq_none_iff]
  omega

theorem at?_natCast (r : Raster α) (x y : Nat) : r.at? x y = r.get? x y := by
  simp [at?]

theorem at?_eq_none_iff (r : Raster α) (x y : Int) :
    r.at? x y = none ↔ ¬ (0 ≤ x ∧ x < r.width ∧ 0 ≤ y ∧ y < r.height) := by
  simp only [at?]
  by_cases positive : 0 ≤ x ∧ 0 ≤ y
  · rw [if_pos positive, get?_eq_none_iff]
    omega
  · rw [if_neg positive]
    simp only [true_iff]
    omega

theorem exists_at? (r : Raster α) {x y : Int}
    (inside : 0 ≤ x ∧ x < r.width ∧ 0 ≤ y ∧ y < r.height) : ∃ a, r.at? x y = some a := by
  rw [← Option.isSome_iff_exists, Option.isSome_iff_ne_none, ne_eq, at?_eq_none_iff, not_not]
  exact inside

theorem get?_fill (width height : Nat) (a : α) (x y : Nat) :
    (fill width height a).get? x y = if x < width ∧ y < height then some a else none := by
  by_cases inside : x < width ∧ y < height
  · have bound := index_lt inside.1 inside.2
    simp [get?, fill, inside, bound]
  · simp [get?, fill, inside]

def overlaid (r : Raster α) (new : Nat → Nat → Option α) : Raster α where
  width := r.width
  height := r.height
  samples := r.samples.mapIdx fun i old => (new (i % r.width) (i / r.width)).getD old
  size_samples := by simp [r.size_samples]

theorem get?_overlaid (r : Raster α) (new : Nat → Nat → Option α) (x y : Nat) :
    (r.overlaid new).get? x y = (r.get? x y).map fun old => (new x y).getD old := by
  by_cases inside : x < r.width ∧ y < r.height
  · have col := index_col inside.1 y
    have row := index_row inside.1 y
    simp [get?, overlaid, inside, col, row]
  · simp [get?, overlaid, inside]

theorem get?_paste (canvas content : Raster α) (x y : Int) (i j : Nat) :
    (canvas.paste content x y).get? i j =
      (canvas.get? i j).map fun old => (content.at? (i - x) (j - y)).getD old := by
  have overlay : canvas.paste content x y =
      canvas.overlaid fun i j => content.at? (i - x) (j - y) := rfl
  rw [overlay, get?_overlaid]

theorem at?_paste (canvas content : Raster α) (x y i j : Int) :
    (canvas.paste content x y).at? i j =
      (canvas.at? i j).map fun old => (content.at? (i - x) (j - y)).getD old := by
  by_cases positive : 0 ≤ i ∧ 0 ≤ j
  · lift i to Nat using positive.1
    lift j to Nat using positive.2
    rw [at?_natCast, at?_natCast, get?_paste]
  · have beyond : ∀ r : Raster α, r.at? i j = none := fun _ => if_neg positive
    rw [beyond, beyond]
    rfl

theorem get?_crop (r : Raster α) (x y width height i j : Nat) :
    (r.crop x y width height).get? i j =
      if i < width ∧ j < height then r.get? (x + i) (y + j) else none := by
  by_cases inside : i < min width (r.width - x) ∧ j < min height (r.height - y)
  · have here := index_lt inside.1 inside.2
    have col := index_col inside.1 j
    have row := index_row inside.1 j
    have wanted : i < width ∧ j < height := by omega
    have there : x + i < r.width ∧ y + j < r.height := by omega
    have bound : (y + j) * r.width + (x + i) < r.samples.size := by
      rw [r.size_samples]
      exact index_lt there.1 there.2
    simp [get?, crop, inside, here, col, row, wanted, there, bound]
  · have beyond : (r.crop x y width height).get? i j = none := by
      rw [get?_eq_none_iff]
      show min width (r.width - x) ≤ i ∨ min height (r.height - y) ≤ j
      omega
    rw [beyond]
    split
    · rw [eq_comm, get?_eq_none_iff]
      omega
    · rfl

theorem ext_samples {r s : Raster α} (width : r.width = s.width) (height : r.height = s.height)
    (samples : r.samples = s.samples) : r = s := by
  obtain ⟨_, _, _, _⟩ := r
  obtain ⟨_, _, _, _⟩ := s
  simp only at width height samples
  subst width height samples
  rfl

theorem get?_of_index (r : Raster α) {i : Nat} (here : i < r.samples.size) :
    i % r.width < r.width ∧ i / r.width < r.height ∧
      r.get? (i % r.width) (i / r.width) = some r.samples[i] := by
  have bound : i < r.width * r.height := by rwa [r.size_samples] at here
  have columns : 0 < r.width := Nat.pos_of_mul_pos_right (Nat.zero_lt_of_lt bound)
  have col : i % r.width < r.width := Nat.mod_lt _ columns
  have row : i / r.width < r.height :=
    (Nat.div_lt_iff_lt_mul columns).mpr (by rw [Nat.mul_comm]; exact bound)
  have index : i / r.width * r.width + i % r.width = i := by
    rw [Nat.mul_comm]
    exact Nat.div_add_mod i r.width
  refine ⟨col, row, ?_⟩
  rw [get?, if_pos ⟨col, row⟩, index, Array.getElem?_eq_getElem here]

theorem ext_get? {r s : Raster α} (width : r.width = s.width) (height : r.height = s.height)
    (same : ∀ x y, x < r.width → y < r.height → r.get? x y = s.get? x y) : r = s := by
  apply ext_samples width height
  apply Array.ext
  · rw [r.size_samples, s.size_samples, width, height]
  · intro i here there
    obtain ⟨col, row, first⟩ := r.get?_of_index here
    obtain ⟨_, _, second⟩ := s.get?_of_index there
    have sample := same _ _ col row
    rw [first, width, second] at sample
    exact Option.some.inj sample

end PixelTables.Raster
