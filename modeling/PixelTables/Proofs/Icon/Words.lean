import PixelTables.Icon
import PixelTables.Proofs.Encoding
import PixelTables.Proofs.Raster.Centered

namespace PixelTables

namespace Icon

structure CellOf (e : IconEncoding) (content : Raster Rgba) (size : Nat) (o : Int) (cell : Cell) :
    Prop where
  width : cell.width = size
  height : cell.height = size
  inside : ∀ x y : Nat, x < size → y < size → ∀ pixel, content.at? (x - o) (y - o) = some pixel →
    ∃ w, cell.get? x y = some w ∧ e.Stores pixel w
  around : ∀ x y : Nat, x < size → y < size → content.at? (x - o) (y - o) = none →
    cell.get? x y = some (e.word .transparent)
  blank : 1 ≤ e.alphaCutoff → e.word .transparent = transparentWord
  high : ∀ w ∈ cell.samples, w ≠ transparentWord → w >>> 24 = 0

theorem get?_rasterize (source : Raster Rgba) (resizer : Image.Resizer)
    {cellSize contentSize x y : Nat} (beside : x < cellSize) (below : y < cellSize) :
    (rasterize source cellSize contentSize resizer).get? x y =
      some (((resizer.resize source contentSize contentSize).at?
        (x - centeredOffset cellSize contentSize)
        (y - centeredOffset cellSize contentSize)).getD .transparent) := by
  rw [rasterize, Raster.compositeCentered, Raster.get?_paste, Raster.transparent, Raster.get?_fill,
    if_pos ⟨beside, below⟩, resizer.width_resize, resizer.height_resize]
  rfl

theorem high_of_mem_encode {e : IconEncoding} {image : Raster Rgba} {w : UInt32}
    (member : w ∈ (e.encode image).samples) (drawn : w ≠ transparentWord) : w >>> 24 = 0 := by
  obtain ⟨pixel, _, rfl⟩ := Array.mem_map.mp member
  have stores := e.stores_word pixel
  have visible : e.alphaCutoff ≤ pixel.alpha :=
    UInt8.not_lt.mp fun below => drawn (stores.hidden.mpr below)
  exact (stores.drawn visible).high

/-- A picture of any size gives a cell of the wanted size with the resized picture in its middle. -/
theorem encode_rasterize (e : IconEncoding) (source : Raster Rgba) (cellSize contentSize : Nat)
    (resizer : Image.Resizer) :
    (resizer.resize source contentSize contentSize).width = contentSize ∧
      (resizer.resize source contentSize contentSize).height = contentSize ∧
      (source.width = contentSize → source.height = contentSize →
        resizer.resize source contentSize contentSize = source) ∧
      CellOf e (resizer.resize source contentSize contentSize) cellSize
        ⌊((cellSize : ℚ) - contentSize) / 2⌋
        (e.encode (rasterize source cellSize contentSize resizer)) := by
  refine ⟨resizer.width_resize .., resizer.height_resize .., ?_, ?_⟩
  · intro columns rows
    subst columns
    simpa only [rows] using resizer.resize_same source
  rw [← centeredOffset_eq_floor]
  refine ⟨rfl, rfl, ?_, ?_, ?_, fun w => high_of_mem_encode⟩
  · intro x y beside below pixel there
    refine ⟨e.word pixel, ?_, e.stores_word pixel⟩
    rw [IconEncoding.encode, Raster.get?_map, get?_rasterize source resizer beside below, there]
    rfl
  · intro x y beside below nothing
    rw [IconEncoding.encode, Raster.get?_map, get?_rasterize source resizer beside below, nothing]
    rfl
  · intro some
    have cutoff : e.alphaCutoff ≠ 0 := by
      intro none
      rw [none] at some
      exact absurd some (by decide)
    rw [e.word_transparent, if_neg cutoff]

def diagonal : Raster Rgba :=
  .ofFn 3 3 fun x y => ⟨x.toUInt8, y.toUInt8, 7, if x = y then 128 else 127⟩

theorem encode_rasterize_diagonal :
    Image.resize diagonal 3 3 = diagonal ∧
      CellOf ⟨128⟩ diagonal 2 (-1) (IconEncoding.encode ⟨128⟩ (rasterize diagonal 2 3)) ∧
      (IconEncoding.encode ⟨128⟩ (rasterize diagonal 2 3)).samples =
        #[0x00010107, transparentWord, transparentWord, 0x00020207] := by
  obtain ⟨_, _, same, cell⟩ := encode_rasterize ⟨128⟩ diagonal 2 3 .lanczos3
  have kept : Image.resize diagonal 3 3 = diagonal := same rfl rfl
  have start : ⌊((2 : ℕ) - (3 : ℕ) : ℚ) / 2⌋ = -1 := by
    rw [← centeredOffset_eq_floor]
    rfl
  rw [start] at cell
  exact ⟨kept, kept ▸ cell, by decide +kernel⟩

end Icon

end PixelTables
