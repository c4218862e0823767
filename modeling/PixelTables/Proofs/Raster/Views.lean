import PixelTables.Encoding
import PixelTables.Proofs.Raster.Placement
import PixelTables.Proofs.Raster.Rows

namespace PixelTables

variable {α : Type}

def chunks (size : Nat) (as : List α) : List (List α) :=
  if 0 < size ∧ size ≤ as.length then as.take size :: chunks size (as.drop size) else []
termination_by as.length
decreasing_by
  rw [List.length_drop]
  omega

theorem chunks_flatten {size : Nat} (some : 0 < size) {rows : List (List α)}
    (even : ∀ row ∈ rows, row.length = size) : chunks size rows.flatten = rows := by
  induction rows with
  | nil =>
    rw [List.flatten_nil, chunks, if_neg (by rw [List.length_nil]; omega)]
  | cons row rest ih =>
    have first : row.length = size := even row List.mem_cons_self
    have later := ih fun other member => even other (List.mem_cons_of_mem _ member)
    have enough : 0 < size ∧ size ≤ (row ++ rest.flatten).length := by
      rw [List.length_append]
      omega
    rw [List.flatten_cons, chunks, if_pos enough, List.take_left' first, List.drop_left' first, later]

namespace Raster

theorem row?_eq_none_iff (r : Raster α) (columns : 0 < r.width) (y : Nat) :
    r.row? y = none ↔ r.height ≤ y := by
  constructor
  · intro nothing
    by_contra inside
    rw [r.row?_of_lt (by omega)] at nothing
    cases nothing
  · intro beyond
    -- the rows above it have used up all samples
    have used : r.width * r.height ≤ y * r.width := by
      rw [Nat.mul_comm r.width]
      exact Nat.mul_le_mul_right _ beyond
    rw [row?, if_neg (by rw [r.size_samples]; omega)]

theorem size_of_row? (r : Raster α) {y : Nat} {row : Array α} (found : r.row? y = some row) :
    row.size = r.width := by
  simp only [row?, Option.ite_none_right_eq_some, Option.some.injEq] at found
  obtain ⟨fits, rfl⟩ := found
  rw [Array.size_extract]
  omega

theorem getElem?_rows (r : Raster α) (columns : 0 < r.width) (y : Nat) :
    r.rows[y]? = r.row? y := by
  by_cases inside : y < r.height
  · rw [r.row?_of_lt inside, r.rows_eq columns, List.getElem?_map, List.getElem?_range inside,
      Option.map_some]
  · rw [(r.row?_eq_none_iff columns y).mpr (by omega), List.getElem?_eq_none_iff, r.length_rows columns]
    omega

theorem rows_chunks (r : Raster α) (columns : 0 < r.width) :
    r.rows.map Array.toList = chunks (max r.width 1) r.samples.toList := by
  rw [← r.flatten_rows columns, Nat.max_eq_left columns, chunks_flatten columns]
  intro row member
  obtain ⟨row, present, rfl⟩ := List.mem_map.mp member
  exact r.size_of_mem_rows columns present

structure Views (r : Raster α) (width height : Nat) (samples : Array α) : Prop where
  count : r.rows.length = height
  cut : r.rows.map Array.toList = chunks (max width 1) samples.toList
  joined : (r.rows.map Array.toList).flatten = samples.toList
  row : ∀ y, r.rows[y]? = r.row? y
  length : ∀ y row, r.row? y = some row → row.size = width
  below : ∀ y, r.row? y = none ↔ height ≤ y
  place : ∀ x y, r.get? x y = (r.row? y).bind (·[x]?)
  outside : ∀ x y, r.get? x y = none ↔ width ≤ x ∨ height ≤ y
  inside : ∀ x y, x < width → y < height →
    ∃ a, r.get? x y = some a ∧ samples[y * width + x]? = some a

theorem views (r : Raster α) (columns : 1 ≤ r.width) : r.Views r.width r.height r.samples where
  count := r.length_rows columns
  cut := r.rows_chunks columns
  joined := r.flatten_rows columns
  row := r.getElem?_rows columns
  length _ _ := r.size_of_row?
  below := r.row?_eq_none_iff columns
  place x y := by rw [← r.getElem?_rows columns, r.getElem_rows columns]
  outside := r.get?_eq_none_iff
  inside x y beside below := by
    obtain ⟨a, here⟩ := r.exists_get? beside below
    exact ⟨a, here, by rw [r.getElem_samples beside below, here]⟩

theorem ofSamples?_eq_none_iff {width height : Nat} {samples : Array α} :
    ofSamples? width height samples = none ↔ samples.size ≠ width * height := by
  simp only [ofSamples?, dite_eq_right_iff, reduceCtorEq, imp_false, ne_eq]

theorem ofSamples?_eq_some {width height : Nat} {samples : Array α} {r : Raster α}
    (made : ofSamples? width height samples = some r) :
    r.width = width ∧ r.height = height ∧ r.samples = samples := by
  simp only [ofSamples?, Option.dite_none_right_eq_some, Option.some.injEq] at made
  obtain ⟨_, rfl⟩ := made
  exact ⟨rfl, rfl, rfl⟩

structure Encoded (word : α → UInt32) (image : Raster α) (cell : Cell) : Prop where
  made : ofSamples? image.width image.height (image.samples.map word) = some cell
  views : cell.Views image.width image.height (image.samples.map word)
  words : ∀ x y, x < image.width → y < image.height →
    ∃ pixel, image.get? x y = some pixel ∧ cell.get? x y = some (word pixel)

theorem encoded_map (word : α → UInt32) (image : Raster α) (columns : 1 ≤ image.width) :
    Encoded word image (image.map word) where
  made := dif_pos (image.map word).size_samples
  views := (image.map word).views columns
  words x y beside below := by
    obtain ⟨pixel, here⟩ := image.exists_get? beside below
    exact ⟨pixel, here, by rw [get?_map, here, Option.map_some]⟩

/-- A cell is made of words that are as many as its places, and then shows them alike in whichever way it
    is looked at. Both encodings give the cell of the words of an image's pixels. -/
theorem views_agree :
    (∀ (width height : Nat) (words : Array UInt32), 1 ≤ width →
      (ofSamples? width height words = none ↔ words.size ≠ width * height) ∧
        ∀ cell : Cell, ofSamples? width height words = some cell → cell.Views width height words) ∧
      (∀ (e : GlyphEncoding) (image : Raster UInt8), 1 ≤ image.width →
        Encoded e.word image (e.encode image)) ∧
      ∀ (e : IconEncoding) (image : Raster Rgba), 1 ≤ image.width →
        Encoded e.word image (e.encode image) := by
  refine ⟨?_, fun e => encoded_map e.word, fun e => encoded_map e.word⟩
  intro width height words columns
  refine ⟨ofSamples?_eq_none_iff, fun cell made => ?_⟩
  obtain ⟨rfl, rfl, rfl⟩ := ofSamples?_eq_some made
  exact cell.views columns

def twoDots : Raster Rgba :=
  .ofFn 2 2 fun x y => if x = y then .transparent else ⟨(1 + y).toUInt8, 0, 0, 255⟩

theorem views_agree_two_rows :
    ∃ cell : Cell, ofSamples? 3 2 #[1, 2, 3, 4, 5, 6] = some cell ∧
      cell.Views 3 2 #[1, 2, 3, 4, 5, 6] ∧ cell.rows = [#[1, 2, 3], #[4, 5, 6]] ∧
      cell.row? 2 = none ∧ cell.get? 3 0 = none ∧ cell.get? 0 1 = some 4 ∧
      ofSamples? 3 2 (#[1, 2, 3, 4, 5] : Array UInt32) = none ∧
      Encoded (IconEncoding.mk 128).word twoDots (IconEncoding.encode ⟨128⟩ twoDots) ∧
      (IconEncoding.encode ⟨128⟩ twoDots).samples =
        #[transparentWord, 0x00010000, 0x00020000, transparentWord] ∧
      Encoded (GlyphEncoding.binary 128).word (.fill 1 1 127)
        (GlyphEncoding.encode (.binary 128) (.fill 1 1 127)) := by
  obtain ⟨cells, glyphs, icons⟩ := views_agree
  obtain ⟨refused, shown⟩ := cells 3 2 #[1, 2, 3, 4, 5, 6] (by decide)
  obtain ⟨short, _⟩ := cells 3 2 #[1, 2, 3, 4, 5] (by decide)
  have views := shown ⟨3, 2, #[1, 2, 3, 4, 5, 6], rfl⟩ rfl
  exact ⟨_, rfl, views, by decide, (views.below 2).mpr (by decide), (views.outside 3 0).mpr (by decide),
    by decide, short.mpr (by decide), icons ⟨128⟩ twoDots (by decide), by decide +kernel,
    glyphs (.binary 128) (.fill 1 1 127) (by decide)⟩

end Raster

end PixelTables
