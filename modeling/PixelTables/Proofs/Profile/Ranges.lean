import PixelTables.Proofs.Profile.Characters
import PixelTables.Proofs.Profile.WellFormed
import Mathlib.Data.List.Sort

namespace PixelTables

def IsScalar (code : Nat) : Prop := code < 0xD800 ∨ 0xE000 ≤ code ∧ code < 0x110000

instance (code : Nat) : Decidable (IsScalar code) := inferInstanceAs (Decidable (_ ∨ _))

theorem charOfCode?_toNat (code : Nat) :
    (Text.charOfCode? code).map Char.toNat = Option.guard (fun n => decide (IsScalar n)) code := by
  have scalar : code.isValidChar ↔ IsScalar code := by
    unfold Nat.isValidChar IsScalar
    omega
  rw [Text.charOfCode?, Option.guard]
  by_cases valid : code.isValidChar
  · rw [dif_pos valid, if_pos (decide_eq_true (scalar.mp valid))]
    rfl
  · rw [dif_neg valid, if_neg (by simpa using mt scalar.mpr valid)]
    rfl

theorem scalars_toNat (codes : List Nat) :
    (codes.filterMap Text.charOfCode?).map Char.toNat = codes.filter (fun n => decide (IsScalar n)) := by
  rw [List.map_filterMap, List.filterMap_congr fun code _ => charOfCode?_toNat code,
    List.filterMap_eq_filter]

namespace GlyphProfile

/-- All of a range that is not empty lies on one side of the surrogates. -/
def Contiguous (p : GlyphProfile) : Prop :=
  1 ≤ p.count.toNat ∧ (p.firstChar.toNat + p.count.toNat ≤ 0xD800 ∨
    0xE000 ≤ p.firstChar.toNat ∧ p.firstChar.toNat + p.count.toNat ≤ 0x110000)

instance (p : GlyphProfile) : Decidable p.Contiguous := inferInstanceAs (Decidable (_ ∧ _))

structure SettingsValid (p : GlyphProfile) : Prop where
  cellWidth : 1 ≤ p.cellWidth.toNat ∧ p.cellWidth.toNat ≤ 4096
  cellHeight : 1 ≤ p.cellHeight.toNat ∧ p.cellHeight.toNat ≤ 4096
  padding : p.padding.toNat ≤ 1024
  fontSize : isUsableSize p.fontSize = true
  shape : p.shape.WellFormed (p.chars.map fun ch => "U" ++ Text.hexUpper 4 ch.toNat)

theorem toNat_chars (p : GlyphProfile) :
    p.chars.map Char.toNat = p.codes.filter (fun n => decide (IsScalar n)) :=
  scalars_toNat p.codes

theorem chars_sorted (p : GlyphProfile) : (p.chars.map Char.toNat).Pairwise (· < ·) := by
  rw [toNat_chars]
  exact List.Pairwise.filter _ List.pairwise_lt_range'

theorem mem_toNat_chars {p : GlyphProfile} {code : Nat} : code ∈ p.chars.map Char.toNat ↔
    IsScalar code ∧ p.firstChar.toNat ≤ code ∧ code < p.firstChar.toNat + p.count.toNat := by
  rw [toNat_chars, List.mem_filter, codes, List.mem_range'_1, decide_eq_true_eq]
  unfold IsScalar
  omega

theorem chars_eq_of_sum_saturated (p : GlyphProfile) :
    p.chars = (List.range' p.firstChar.toNat
      (min (p.firstChar.toNat + p.count.toNat) 0xFFFFFFFF - p.firstChar.toNat)).filterMap
        Text.charOfCode? := by
  apply List.map_injective_iff.mpr fun _ _ => Char.toNat_inj.mp
  have sorted : ∀ start length : Nat,
      ((List.range' start length).filter (fun n => decide (IsScalar n))).Pairwise (· < ·) :=
    fun _ _ => List.Pairwise.filter _ List.pairwise_lt_range'
  apply List.Pairwise.eq_of_mem_iff p.chars_sorted (by rw [scalars_toNat]; exact sorted _ _)
  intro code
  rw [mem_toNat_chars, scalars_toNat, List.mem_filter, List.mem_range'_1, decide_eq_true_eq]
  unfold IsScalar
  omega

theorem length_chars_iff (p : GlyphProfile) : p.chars.length = p.count.toNat ↔
    ∀ code, p.firstChar.toNat ≤ code → code < p.firstChar.toNat + p.count.toNat → IsScalar code := by
  constructor
  · intro full code above below
    have member : code ∈ p.chars.map Char.toNat := by
      rw [chars_toNat full]
      exact List.mem_range'_1.mpr ⟨above, below⟩
    exact (mem_toNat_chars.mp member).1
  · intro scalars
    have whole : p.chars.map Char.toNat = List.range' p.firstChar.toNat p.count.toNat := by
      apply List.Pairwise.eq_of_mem_iff p.chars_sorted List.pairwise_lt_range'
      intro code
      rw [mem_toNat_chars, List.mem_range'_1]
      exact ⟨fun ⟨_, within⟩ => within, fun within => ⟨scalars code within.1 within.2, within⟩⟩
    rw [← List.length_map Char.toNat, whole, List.length_range']

theorem contiguous_iff (p : GlyphProfile) :
    p.Contiguous ↔ p.count ≠ 0 ∧ p.chars.length = p.count.toNat := by
  have first : p.firstChar.toNat < 0xD800 ∨ 0xDFFF < p.firstChar.toNat ∧ p.firstChar.toNat < 0x110000 :=
    p.firstChar.valid
  rw [length_chars_iff, Contiguous, ne_eq, ← UInt32.toNat_inj, UInt32.toNat_zero]
  constructor
  · rintro ⟨counted, aside⟩
    refine ⟨by omega, fun code above below => ?_⟩
    unfold IsScalar
    omega
  · rintro ⟨counted, scalars⟩
    have last := scalars (p.firstChar.toNat + p.count.toNat - 1) (by omega) (by omega)
    -- a range around the surrogates has the first of them
    have gap := scalars 0xD800
    unfold IsScalar at last gap
    omega

theorem check_iff_contiguous (p : GlyphProfile) :
    p.check = .ok () ↔ p.SettingsValid ∧ p.Contiguous := by
  have ids : p.descriptors.map (·.id) =
      (p.chars.map fun ch => "U" ++ Text.hexUpper 4 ch.toNat).map (p.stem ++ "_" ++ ·) :=
    Profile.descriptor_ids p
  have margin : maxPadding.toNat = 1024 := rfl
  have width : (p.cellWidth ≠ 0 ∧ p.cellWidth ≤ maxCellSide) ↔
      1 ≤ p.cellWidth.toNat ∧ p.cellWidth.toNat ≤ 4096 := within_iff
  have height : (p.cellHeight ≠ 0 ∧ p.cellHeight ≤ maxCellSide) ↔
      1 ≤ p.cellHeight.toNat ∧ p.cellHeight.toNat ≤ 4096 := within_iff
  rw [check_eq_ok, contiguous_iff, ids, Shape.check_iff_wellFormed, UInt32.le_iff_toNat_le (b := maxPadding),
    margin]
  constructor
  · rintro ⟨⟨wide, high⟩, ⟨narrow, low⟩, padding, counted, full, fontSize, shape⟩
    exact ⟨⟨width.mp ⟨wide, narrow⟩, height.mp ⟨high, low⟩, padding, fontSize, shape⟩, counted, full⟩
  · rintro ⟨⟨cellWidth, cellHeight, padding, fontSize, shape⟩, counted, full⟩
    obtain ⟨wide, narrow⟩ := width.mpr cellWidth
    obtain ⟨high, low⟩ := height.mpr cellHeight
    exact ⟨⟨wide, high⟩, ⟨narrow, low⟩, padding, counted, full, fontSize, shape⟩

theorem contiguous_getElem? {p : GlyphProfile} (contiguous : p.Contiguous) {i : Nat}
    (inside : i < p.count.toNat) : ∃ ch, p.chars[i]? = some ch ∧ ch.toNat = p.firstChar.toNat + i := by
  have full := (p.contiguous_iff.mp contiguous).2
  refine ⟨p.chars[i], List.getElem?_eq_getElem (by omega), ?_⟩
  have place : (p.chars.map Char.toNat)[i]? = some (p.firstChar.toNat + i) := by
    rw [chars_toNat full, List.getElem?_range' inside, Nat.one_mul]
  rw [List.getElem?_map, List.getElem?_eq_getElem (by omega)] at place
  exact Option.some.inj place

/-- The characters of a profile are those of its range, in order, and of profiles that are in order
    otherwise exactly those are accepted that miss none. -/
theorem chars_of_range (p : GlyphProfile) :
    (p.chars.map Char.toNat).Pairwise (· < ·) ∧
      (∀ code, code ∈ p.chars.map Char.toNat ↔ IsScalar code ∧ p.firstChar.toNat ≤ code ∧
        code < p.firstChar.toNat + p.count.toNat) ∧
      p.chars = (List.range' p.firstChar.toNat
        (min (p.firstChar.toNat + p.count.toNat) 0xFFFFFFFF - p.firstChar.toNat)).filterMap
          Text.charOfCode? ∧
      (p.check = .ok () ↔ p.SettingsValid ∧ p.Contiguous) ∧
      (p.Contiguous → p.chars.length = p.count.toNat ∧ ∀ i < p.count.toNat, ∃ ch,
        p.chars[i]? = some ch ∧ ch.toNat = p.firstChar.toNat + i) :=
  ⟨p.chars_sorted, fun _ => mem_toNat_chars, p.chars_eq_of_sum_saturated, p.check_iff_contiguous,
    fun contiguous => ⟨(p.contiguous_iff.mp contiguous).2, fun _ inside =>
      contiguous_getElem? contiguous inside⟩⟩

def beforeSurrogates : GlyphProfile := { standard with firstChar := '\ud7fe', count := 2 }

theorem chars_of_range_before_surrogates :
    beforeSurrogates.check = .ok () ∧ beforeSurrogates.Contiguous ∧
      beforeSurrogates.chars.length = 2 ∧ ∀ i < 2, ∃ ch,
        beforeSurrogates.chars[i]? = some ch ∧ ch.toNat = 0xD7FE + i := by
  have contiguous : beforeSurrogates.Contiguous := by decide
  have checked : beforeSurrogates.check = .ok () := by
    rw [← toOption_eq_some]
    decide +kernel
  exact ⟨checked, contiguous, (chars_of_range beforeSurrogates).2.2.2.2 contiguous⟩

end GlyphProfile

end PixelTables
