import PixelTables.Glyph.Geometry

namespace PixelTables

theorem checkedAdd_eq_some_iff {a b c : UInt32} :
    checkedAdd a b = some c ↔ c.toNat = a.toNat + b.toNat := by
  refine ⟨checkedAdd_eq_some, fun sum => ?_⟩
  have small : a.toNat + b.toNat < UInt32.size := sum ▸ c.toNat_lt
  rw [checkedAdd, if_pos small, Option.some.injEq, ← UInt32.toNat_inj, UInt32.toNat_add,
    Nat.mod_eq_of_lt small, sum]

theorem checkedMul_eq_some_iff {a b c : UInt32} :
    checkedMul a b = some c ↔ c.toNat = a.toNat * b.toNat := by
  refine ⟨checkedMul_eq_some, fun product => ?_⟩
  have small : a.toNat * b.toNat < UInt32.size := product ▸ c.toNat_lt
  rw [checkedMul, if_pos small, Option.some.injEq, ← UInt32.toNat_inj, UInt32.toNat_mul,
    Nat.mod_eq_of_lt small, product]

namespace Geometry

def surface (g : Geometry) : Nat × Nat :=
  (g.cellWidth.toNat + 2 * g.padding.toNat, g.cellHeight.toNat + 2 * g.padding.toNat)

def Fits (g : Geometry) : Prop :=
  g.surface.1 ≤ maxCellSide.toNat + 2 * maxPadding.toNat ∧
    g.surface.2 ≤ maxCellSide.toNat + 2 * maxPadding.toNat

instance (g : Geometry) : Decidable g.Fits := inferInstanceAs (Decidable (_ ∧ _))

theorem le_maxCanvasSide_iff {side : UInt32} :
    side ≤ maxCanvasSide ↔ side.toNat ≤ maxCellSide.toNat + 2 * maxPadding.toNat :=
  UInt32.le_iff_toNat_le

theorem canvasSize?_eq_some_iff {g : Geometry} {width height : UInt32} :
    g.canvasSize? = some (width, height) ↔ g.Fits ∧ (width.toNat, height.toNat) = g.surface := by
  have two : (2 : UInt32).toNat = 2 := rfl
  rw [Fits, Prod.ext_iff, surface]
  simp only [canvasSize?, Option.bind_eq_bind, Option.bind_eq_some_iff, checkedMul_eq_some_iff,
    checkedAdd_eq_some_iff, Option.ite_none_right_eq_some, le_maxCanvasSide_iff, Option.some.injEq,
    Prod.mk.injEq, two]
  constructor
  · rintro ⟨margin, doubled, w, across, h, down, bounded, rfl, rfl⟩
    omega
  · rintro ⟨bounded, across, down⟩
    -- twice the padding is a word because its sum with the width is one
    have small : g.padding.toNat * 2 < UInt32.size := by
      have word := width.toNat_lt
      show g.padding.toNat * 2 < 4294967296
      omega
    have doubled := UInt32.toNat_ofNat_of_lt' small
    exact ⟨UInt32.ofNat (g.padding.toNat * 2), by omega, width, by omega, height, by omega, by omega,
      rfl, rfl⟩

/-- The sums never wrap: they are what they are as numbers, or there is no surface. -/
theorem canvasSize?_toNat (g : Geometry) :
    g.canvasSize?.map (Prod.map UInt32.toNat UInt32.toNat) = if g.Fits then some g.surface else none := by
  by_cases fits : g.Fits
  · have across : g.surface.1 < UInt32.size := Nat.lt_of_le_of_lt fits.1 (by decide)
    have down : g.surface.2 < UInt32.size := Nat.lt_of_le_of_lt fits.2 (by decide)
    have sides : ((UInt32.ofNat g.surface.1).toNat, (UInt32.ofNat g.surface.2).toNat) = g.surface :=
      Prod.ext (UInt32.toNat_ofNat_of_lt' across) (UInt32.toNat_ofNat_of_lt' down)
    rw [if_pos fits, canvasSize?_eq_some_iff.mpr ⟨fits, sides⟩]
    exact congrArg some sides
  · rw [if_neg fits, Option.map_eq_none_iff, Option.eq_none_iff_forall_ne_some]
    exact fun canvas found => fits (canvasSize?_eq_some_iff.mp found).1

theorem canvasSize?_of_le {g : Geometry} (width : g.cellWidth ≤ maxCellSide)
    (height : g.cellHeight ≤ maxCellSide) (padding : g.padding ≤ maxPadding) :
    ∃ canvas, g.canvasSize? = some canvas := by
  rw [UInt32.le_iff_toNat_le] at width height padding
  have fits : g.Fits := by
    rw [Fits, surface]
    omega
  have found := g.canvasSize?_toNat
  rw [if_pos fits] at found
  obtain ⟨canvas, some, _⟩ := Option.map_eq_some_iff.mp found
  exact ⟨canvas, some⟩

end Geometry

end PixelTables
