import PixelTables.Proofs.Baking.Slots
import PixelTables.Proofs.Raster.Centered

namespace PixelTables

namespace GlyphMask

def Whole (mask : GlyphMask) : Prop := mask.samples.size = mask.width * mask.height

def sample? (mask : GlyphMask) (x y : Int) : Option UInt8 :=
  if 0 ≤ x ∧ x < mask.width ∧ 0 ≤ y ∧ y < mask.height then
    mask.samples[(y * mask.width + x).toNat]?
  else none

def moved (mask : GlyphMask) (left top : Int) : GlyphMask := { mask with left, top }

theorem exists_ink {mask : GlyphMask} (whole : mask.Whole) :
    ∃ ink, Raster.ofSamples? mask.width mask.height mask.samples = some ink ∧
      ink.width = mask.width ∧ ink.height = mask.height ∧ ink.samples = mask.samples :=
  ⟨_, dif_pos whole, rfl, rfl, rfl⟩

theorem at?_ink {mask : GlyphMask} {ink : Raster UInt8} (width : ink.width = mask.width)
    (height : ink.height = mask.height) (samples : ink.samples = mask.samples) (x y : Int) :
    ink.at? x y = mask.sample? x y := by
  by_cases inside : 0 ≤ x ∧ x < ink.width ∧ 0 ≤ y ∧ y < ink.height
  · have reached := inside
    rw [width, height] at reached
    lift x to Nat using inside.1
    lift y to Nat using inside.2.2.1
    have place : ((y : Int) * mask.width + x).toNat = y * mask.width + x := by
      rw [← Int.natCast_mul, ← Int.natCast_add, Int.toNat_natCast]
    rw [sample?, if_pos reached, place, Raster.at?_natCast, Raster.get?, if_pos (by omega), width,
      samples]
  · have outside : ink.at? x y = none := by
      rw [Raster.at?_eq_none_iff]
      exact inside
    rw [outside, sample?, if_neg (by omega)]

end GlyphMask

namespace Geometry

def padded (g : Geometry) (padding : UInt32) : Geometry := { g with padding }

/-- The cell of a mask: its box is centred, and what has no sample is bare. -/
structure Centers (g : Geometry) (mask : GlyphMask) (cell : Raster UInt8) : Prop where
  width : cell.width = g.cellWidth.toNat
  height : cell.height = g.cellHeight.toNat
  samples : ∀ x y : Nat, x < g.cellWidth.toNat → y < g.cellHeight.toNat →
    cell.get? x y = some ((mask.sample?
      (x - ⌊((g.cellWidth.toNat : ℚ) - mask.width) / 2⌋)
      (y - ⌊((g.cellHeight.toNat : ℚ) - mask.height) / 2⌋)).getD 0)

theorem Centers.unique {g : Geometry} {mask : GlyphMask} {cell other : Raster UInt8}
    (first : g.Centers mask cell) (second : g.Centers mask other) : cell = other := by
  have width : cell.width = other.width := first.width.trans second.width.symm
  have height : cell.height = other.height := first.height.trans second.height.symm
  refine Raster.ext_get? width height ?_
  intro x y beside below
  rw [first.width] at beside
  rw [first.height] at below
  rw [first.samples x y beside below, second.samples x y beside below]

theorem get?_drawInk {g : Geometry} {canvas : UInt32 × UInt32}
    (found : g.canvasSize? = some canvas) (left top : Int) (ink : Raster UInt8) {x y : Nat}
    (beside : x < g.cellWidth.toNat) (below : y < g.cellHeight.toNat) :
    (g.drawInk canvas left top ink).get? x y =
      some ((ink.at? (x - centeredOffset g.cellWidth.toNat ink.width)
        (y - centeredOffset g.cellHeight.toNat ink.height)).getD 0) := by
  obtain ⟨columns, rows⟩ := canvas
  obtain ⟨across, down⟩ := g.canvasSize?_eq found
  have inCell : x < g.cellWidth.toNat ∧ y < g.cellHeight.toNat := ⟨beside, below⟩
  have onCanvas : g.padding.toNat + x < columns.toNat ∧ g.padding.toNat + y < rows.toNat := by omega
  simp only [drawInk]
  generalize centeredOffset g.cellWidth.toNat ink.width = ox
  generalize centeredOffset g.cellHeight.toNat ink.height = oy
  -- the margin and the bearings cancel out
  have column : ((g.padding.toNat + x : Nat) : Int) -
      (g.padding.toNat + (ox - left) + left) = x - ox := by omega
  have row : ((g.padding.toNat + y : Nat) : Int) -
      (g.padding.toNat + (oy + top) - top) = y - oy := by omega
  rw [Raster.get?_crop, if_pos inCell, Raster.get?_paste, Raster.get?_fill, if_pos onCanvas, column,
    row]
  rfl

theorem centers_drawInk {g : Geometry} {canvas : UInt32 × UInt32}
    (found : g.canvasSize? = some canvas) {mask : GlyphMask} {ink : Raster UInt8}
    (width : ink.width = mask.width) (height : ink.height = mask.height)
    (samples : ink.samples = mask.samples) :
    g.Centers mask (g.drawInk canvas mask.left mask.top ink) := by
  obtain ⟨columns, rows⟩ := drawInk_size found mask.left mask.top ink
  refine ⟨columns, rows, ?_⟩
  intro x y beside below
  rw [get?_drawInk found mask.left mask.top ink beside below,
    GlyphMask.at?_ink width height samples, width, height, centeredOffset_eq_floor,
    centeredOffset_eq_floor]

inductive Yields (g : Geometry) (ch : Char) :
    Except GlyphError GlyphMask → Except GlyphError (Raster UInt8) → Prop where
  | failed (why : GlyphError) : Yields g ch (.error why) (.error why)
  | malformed {mask : GlyphMask} (broken : ¬ mask.Whole) :
      Yields g ch (.ok mask) (.error (.malformedMask ch))
  | drawn {mask : GlyphMask} {cell : Raster UInt8} (whole : mask.Whole)
      (centers : g.Centers mask cell) : Yields g ch (.ok mask) (.ok cell)

theorem yields_picture {g : Geometry} {canvas : UInt32 × UInt32}
    (found : g.canvasSize? = some canvas) (call : GlyphCall) :
    g.Yields call.ch call.answer (g.picture canvas call) := by
  obtain ⟨ch, size, answer⟩ := call
  cases answer with
  | error why => exact .failed why
  | ok mask =>
    by_cases whole : mask.Whole
    · obtain ⟨ink, made, width, height, samples⟩ := mask.exists_ink whole
      simp only [picture, made]
      exact .drawn whole (centers_drawInk found width height samples)
    · have unmade : Raster.ofSamples? mask.width mask.height mask.samples = none := dif_neg whole
      simp only [picture, unmade]
      exact .malformed whole

theorem Yields.unique {g : Geometry} {ch : Char} {answer : Except GlyphError GlyphMask}
    {result other : Except GlyphError (Raster UInt8)} (first : g.Yields ch answer result)
    (second : g.Yields ch answer other) : result = other := by
  cases first with
  | failed why =>
    cases second
    rfl
  | malformed broken =>
    cases second with
    | malformed => rfl
    | drawn whole => exact absurd whole broken
  | drawn whole centers =>
    cases second with
    | malformed broken => exact absurd whole broken
    | drawn _ centered => rw [centers.unique centered]

theorem Yields.of_moved {g : Geometry} {padding : UInt32} {ch : Char} {left top : Int}
    {answer : Except GlyphError GlyphMask} {result : Except GlyphError (Raster UInt8)}
    (yields : (g.padded padding).Yields ch (answer.map (·.moved left top)) result) :
    g.Yields ch answer result := by
  cases answer with
  | error why =>
    cases yields
    exact .failed why
  | ok mask =>
    cases yields with
    | malformed broken => exact .malformed broken
    | drawn whole centers =>
      exact .drawn whole ⟨centers.width, centers.height, centers.samples⟩

theorem rasterize_moved {τ : Type} {g : Geometry} {other : GlyphSource τ} {ch : Char} {t : τ}
    {left top : Int} {padding : UInt32} (fits : (g.padded padding).canvasSize? ≠ none)
    {answer : Except GlyphError GlyphMask} {result : Except GlyphError (Raster UInt8)}
    (same : (other ch g.fontSize t).1 = answer.map (·.moved left top))
    (yields : g.Yields ch answer result) : ((g.padded padding).rasterize other ch t).1 = result := by
  obtain ⟨canvas, found⟩ := Option.ne_none_iff_exists'.mp fits
  have again := yields_picture found ⟨ch, g.fontSize, (other ch g.fontSize t).1⟩
  rw [rasterize_of_canvas found]
  show (g.padded padding).picture canvas ⟨ch, g.fontSize, (other ch g.fontSize t).1⟩ = result
  rw [same] at again ⊢
  exact again.of_moved.unique yields

/-- A surface that is too large leaves the source alone. On any other one it is asked once, and its
    mask is centred in the cell whatever the bearings and the margin are. -/
theorem rasterize_yields {σ : Type} (g : Geometry) (source : GlyphSource σ) (ch : Char) (s : σ)
    (calls : List GlyphCall) :
    (g.canvasSize? = none →
      g.rasterize source ch s = (.error .canvasTooLarge, s) ∧
        g.rasterize source.transcribed ch (s, calls) = (.error .canvasTooLarge, s, calls)) ∧
      (g.canvasSize? ≠ none → ∀ answer later, source ch g.fontSize s = (answer, later) →
        ∃ result, g.Yields ch answer result ∧
          g.rasterize source ch s = (result, later) ∧
          g.rasterize source.transcribed ch (s, calls) =
            (result, later, calls ++ [⟨ch, g.fontSize, answer⟩]) ∧
          ∀ (τ : Type) (other : GlyphSource τ) (t : τ) (left top : Int) (padding : UInt32),
            (g.padded padding).canvasSize? ≠ none →
            (other ch g.fontSize t).1 = answer.map (·.moved left top) →
              ((g.padded padding).rasterize other ch t).1 = result) := by
  refine ⟨?_, ?_⟩
  · intro large
    simp only [rasterize, large, and_self]
  · intro fits answer later asked
    obtain ⟨canvas, found⟩ := Option.ne_none_iff_exists'.mp fits
    have yields := yields_picture found ⟨ch, g.fontSize, answer⟩
    refine ⟨_, yields, ?_, ?_, ?_⟩
    · rw [rasterize_of_canvas found, asked]
    · rw [rasterize_of_canvas found]
      simp only [GlyphSource.transcribed, asked]
    · intro τ other t left top padding padded same
      exact rasterize_moved padded same yields

def smallCell (padding : UInt32) : Geometry := ⟨4, 3, 12, padding⟩

def broadMask (left top : Int) : GlyphMask := ⟨left, top, 9, 1, #[1, 2, 3, 4, 5, 6, 7, 8, 9]⟩

def counting (mask : GlyphMask) : GlyphSource Nat := fun _ _ asked => (.ok mask, asked + 1)

/-- Ink five columns wider than its cell, on surfaces it does and does not fit on, and a margin that
    no surface has room for. -/
theorem rasterize_yields_broad :
    (smallCell 5000).rasterize (counting (broadMask 0 0)) 'x' 0 = (.error .canvasTooLarge, 0) ∧
      ∃ cell, (smallCell 1).Centers (broadMask (-7) 40) cell ∧
        cell.samples = #[0, 0, 0, 0, 4, 5, 6, 7, 0, 0, 0, 0] ∧
        (smallCell 1).rasterize (counting (broadMask (-7) 40)) 'x' 0 = (.ok cell, 1) ∧
        ((smallCell 300).rasterize (counting (broadMask 6 (-2))) 'x' 7).1 = .ok cell := by
  obtain ⟨large, _⟩ := rasterize_yields (smallCell 5000) (counting (broadMask 0 0)) 'x' 0 []
  obtain ⟨_, fits⟩ := rasterize_yields (smallCell 1) (counting (broadMask (-7) 40)) 'x' 0 []
  obtain ⟨result, yields, drawn, _, alike⟩ := fits (by decide) (.ok (broadMask (-7) 40)) 1 rfl
  have elsewhere := alike Nat (counting (broadMask 6 (-2))) 7 6 (-2) 300 (by decide) rfl
  cases yields with
  | malformed broken => exact absurd rfl broken
  | @drawn _ cell _ centers =>
    have samples : ((smallCell 1).rasterize (counting (broadMask (-7) 40)) 'x' 0
        ).1.toOption.map (·.samples) = some #[0, 0, 0, 0, 4, 5, 6, 7, 0, 0, 0, 0] := by
      decide +kernel
    rw [drawn] at samples
    exact ⟨(large (by decide)).1, cell, centers, Option.some.inj samples, drawn, elsewhere⟩

end Geometry

end PixelTables
