import PixelTables.Cell
import Mathlib.Data.List.Basic

namespace PixelTables.Raster

variable {α : Type}

theorem row?_of_lt (r : Raster α) {y : Nat} (inside : y < r.height) :
    r.row? y = some (r.samples.extract (y * r.width) (y * r.width + r.width)) := by
  have some := r.row?_isSome_of_lt inside
  simp only [row?] at some ⊢
  split
  · rfl
  · rename_i beyond
    simp [beyond] at some

theorem rows_eq (r : Raster α) (columns : 0 < r.width) :
    r.rows = (List.range r.height).map fun y =>
      r.samples.extract (y * r.width) (y * r.width + r.width) := by
  rw [rows, if_neg (by omega), ← List.filterMap_eq_map]
  apply List.filterMap_congr
  intro y member
  exact r.row?_of_lt (List.mem_range.mp member)

theorem length_rows (r : Raster α) (columns : 0 < r.width) : r.rows.length = r.height := by
  rw [rows_eq r columns, List.length_map, List.length_range]

theorem row_fits (r : Raster α) {y : Nat} (inside : y < r.height) :
    y * r.width + r.width ≤ r.samples.size := by
  rw [r.size_samples, ← Nat.succ_mul, Nat.mul_comm r.width]
  exact Nat.mul_le_mul_right _ inside

theorem size_of_mem_rows (r : Raster α) (columns : 0 < r.width) {row : Array α}
    (member : row ∈ r.rows) : row.size = r.width := by
  rw [rows_eq r columns] at member
  obtain ⟨y, inside, rfl⟩ := List.mem_map.mp member
  have fits := r.row_fits (List.mem_range.mp inside)
  rw [Array.size_extract]
  omega

theorem flatten_rows (r : Raster α) (columns : 0 < r.width) :
    (r.rows.map Array.toList).flatten = r.samples.toList := by
  -- by induction on the number of rows that are taken
  have first : ∀ n ≤ r.height, (((List.range n).map fun y =>
      r.samples.extract (y * r.width) (y * r.width + r.width)).map Array.toList).flatten =
        r.samples.toList.take (n * r.width) := by
    intro n within
    induction n with
    | zero => simp
    | succ n ih =>
      rw [List.range_succ, List.map_append, List.map_append, List.flatten_append, ih (by omega),
        Nat.succ_mul, List.take_add]
      simp
  rw [rows_eq r columns, first _ (Nat.le_refl _)]
  have count : r.samples.toList.length = r.height * r.width := by
    rw [Array.length_toList, r.size_samples, Nat.mul_comm]
  exact List.take_of_length_le (Nat.le_of_eq count)

theorem lengths_rows (r : Raster α) (columns : 0 < r.width) :
    (r.rows.map Array.toList).map List.length = List.replicate r.height r.width := by
  rw [List.eq_replicate_iff, List.length_map, List.length_map, r.length_rows columns]
  refine ⟨rfl, fun n member => ?_⟩
  rw [List.map_map] at member
  obtain ⟨row, present, rfl⟩ := List.mem_map.mp member
  exact r.size_of_mem_rows columns present

theorem length_flatten_rows (r : Raster α) :
    (r.rows.map Array.toList).flatten.length = r.height * r.width := by
  by_cases columns : 0 < r.width
  · rw [r.flatten_rows columns, Array.length_toList, r.size_samples, Nat.mul_comm]
  · have none : r.width = 0 := by omega
    rw [rows, if_pos none, none]
    rfl

theorem getElem_rows (r : Raster α) (columns : 0 < r.width) (x y : Nat) :
    (r.rows[y]?.bind (·[x]?)) = r.get? x y := by
  rw [rows_eq r columns, List.getElem?_map]
  by_cases below : y < r.height
  · have fits := r.row_fits below
    rw [List.getElem?_range below, Option.map_some, Option.bind_some, get?, Array.getElem?_extract]
    by_cases beside : x < r.width
    · rw [if_pos (by omega), if_pos ⟨beside, below⟩]
    · rw [if_neg (by omega), if_neg (by omega)]
  · rw [get?, if_neg (by omega)]
    simp [below]

theorem getElem_samples (r : Raster α) {x y : Nat} (beside : x < r.width) (below : y < r.height) :
    r.samples[y * r.width + x]? = r.get? x y := by
  rw [get?, if_pos ⟨beside, below⟩]

end PixelTables.Raster
