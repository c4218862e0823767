import PixelTables.Proofs.Baking.Profiles
import PixelTables.Proofs.Listing.Names

namespace PixelTables.Profile

open Listing

variable {p : Profile} {t : Table}

def shapeSuffixes (p : Profile) : List String :=
  reservedNames ++ [p.shape.countName, p.shape.sizeName]

def mark : Profile → String
  | .glyphs _ => "FIRST"
  | .icons _ => "TRANSPARENT"

def constantSuffixes (p : Profile) : List String :=
  (if usesSize p.emptyTable then [p.shape.sizeName] else ["WIDTH", "HEIGHT"]) ++
    [p.shape.countName, p.mark]

def suffixes (p : Profile) : List String := p.constantSuffixes ++ p.indexSuffixes

theorem check_shape (checked : p.check = .ok ()) :
    p.shape.check p.name p.stem (p.indexSuffixes.map p.constant) = .ok () := by
  cases p with
  | glyphs p =>
    obtain ⟨_, _, _, _, _, _, shape⟩ := GlyphProfile.check_eq_ok.mp checked
    rw [← descriptor_ids]
    exact shape
  | icons p =>
    obtain ⟨_, _, _, shape⟩ := IconProfile.check_eq_ok.mp checked
    rw [indexSuffixes, List.map_map]
    exact shape

theorem spelled_indexSuffixes (checked : p.check = .ok ()) : ∀ s ∈ p.indexSuffixes, Spelled s := by
  cases p with
  | glyphs p =>
    have letter : Spelled "U" := by decide
    exact List.forall_mem_map.mpr fun ch _ => letter.append (spelled_hexUpper 4 ch.toNat)
  | icons p =>
    obtain ⟨_, _, entries, _⟩ := IconProfile.check_eq_ok.mp checked
    have each := (IconProfile.checkEntries_eq_ok.mp entries).1
    exact List.forall_mem_map.mpr fun e member => spelled_identifier (each e member).1

theorem indexSuffixes_nodup (checked : p.check = .ok ()) : p.indexSuffixes.Nodup := by
  cases p with
  | glyphs p =>
    have distinct := p.indices_nodup
    rw [List.map_congr_left fun ch _ => glyph_index p ch] at distinct
    apply List.Nodup.of_map (glyphs p).constant
    rw [indexSuffixes, List.map_map]
    exact distinct
  | icons p =>
    obtain ⟨_, _, entries, _⟩ := IconProfile.check_eq_ok.mp checked
    exact (IconProfile.checkEntries_eq_ok.mp entries).2

theorem mark_reserved (p : Profile) : p.mark ∈ reservedNames ∧ p.mark ∉ ["WIDTH", "HEIGHT"] := by
  cases p with
  | glyphs p => exact (by decide : "FIRST" ∈ reservedNames ∧ "FIRST" ∉ ["WIDTH", "HEIGHT"])
  | icons p => exact (by decide : "TRANSPARENT" ∈ reservedNames ∧ "TRANSPARENT" ∉ ["WIDTH", "HEIGHT"])

theorem constantSuffixes_subset (p : Profile) : ∀ s ∈ p.constantSuffixes, s ∈ p.shapeSuffixes := by
  have own := p.mark_reserved.1
  have sides : ∀ s ∈ ["WIDTH", "HEIGHT"], s ∈ reservedNames := by decide
  intro s member
  simp only [constantSuffixes, List.mem_append, List.mem_cons, List.not_mem_nil, or_false] at member
  rw [shapeSuffixes, List.mem_append]
  rcases member with side | rfl | rfl
  · split at side
    · exact .inr (by simp [List.mem_singleton.mp side])
    · exact .inl (sides s side)
  · exact .inr (by simp)
  · exact .inl own

structure WellNamed (p : Profile) : Prop where
  name : isIdentifier p.name = true
  stem : isIdentifier p.stem = true
  countName : isIdentifier p.shape.countName = true
  sizeName : isIdentifier p.shape.sizeName = true
  shape : p.shapeSuffixes.Nodup
  indices : p.indexSuffixes.Nodup
  spelled : ∀ s ∈ p.indexSuffixes, Spelled s
  apart : ∀ s ∈ p.indexSuffixes, s ∉ p.shapeSuffixes

theorem wellNamed_of_checked (checked : p.check = .ok ()) (name : isIdentifier p.name = true)
    (stem : isIdentifier p.stem = true) : p.WellNamed := by
  obtain ⟨countName, sizeName, shape, fresh⟩ := Shape.check_eq_ok.mp (check_shape checked)
  have apart : ∀ s ∈ p.indexSuffixes, s ∉ p.shapeSuffixes := by
    intro s index constant
    exact fresh _ (List.mem_map_of_mem index) (List.mem_map_of_mem constant)
  exact ⟨name, stem, countName, sizeName, shape, indexSuffixes_nodup checked,
    spelled_indexSuffixes checked, apart⟩

theorem wellNamed {c : Config} (valid : c.check = .ok ()) (member : p ∈ c.profiles) : p.WellNamed := by
  obtain ⟨name, stem⟩ := c.profile_identifiers valid member
  exact wellNamed_of_checked (c.profile_checked valid member) name stem

namespace WellNamed

variable (named : p.WellNamed)
include named

theorem constantSuffixes_nodup : p.constantSuffixes.Nodup := by
  obtain ⟨own, other⟩ := p.mark_reserved
  obtain ⟨_, names, apart⟩ := List.nodup_append.mp named.shape
  have sides : ∀ s ∈ ["WIDTH", "HEIGHT"], s ∈ reservedNames := by decide
  have count : ∀ s ∈ reservedNames, s ≠ p.shape.countName := fun s member => apart s member _ (by simp)
  have size : ∀ s ∈ reservedNames, s ≠ p.shape.sizeName := fun s member => apart s member _ (by simp)
  have behind : [p.shape.countName, p.mark].Nodup := by simpa using (count _ own).symm
  rw [constantSuffixes]
  split
  · have differ : p.shape.countName ≠ p.shape.sizeName := by simpa using names
    have fresh : p.shape.sizeName ∉ [p.shape.countName, p.mark] := by
      simp [differ.symm, (size _ own).symm]
    exact List.nodup_cons.mpr ⟨fresh, behind⟩
  · apply List.Nodup.append (by decide) behind
    intro s side member
    simp only [List.mem_cons, List.not_mem_nil, or_false] at member
    rcases member with rfl | rfl
    · exact count _ (sides _ side) rfl
    · exact other side

theorem suffixes_nodup : p.suffixes.Nodup := by
  have disjoint : p.constantSuffixes.Disjoint p.indexSuffixes := by
    intro s constant index
    exact named.apart s index (p.constantSuffixes_subset s constant)
  exact named.constantSuffixes_nodup.append named.indices disjoint

theorem spelled_suffixes : ∀ s ∈ p.suffixes, Spelled s := by
  have reserved : ∀ s ∈ reservedNames, Spelled s := by decide
  have shape : ∀ s ∈ p.shapeSuffixes, Spelled s := by
    intro s member
    simp only [shapeSuffixes, List.mem_append, List.mem_cons, List.not_mem_nil, or_false] at member
    rcases member with member | rfl | rfl
    · exact reserved s member
    · exact spelled_identifier named.countName
    · exact spelled_identifier named.sizeName
  intro s member
  rcases List.mem_append.mp member with constant | index
  · exact shape s (p.constantSuffixes_subset s constant)
  · exact named.spelled s index

theorem isIdentifier_constant {s : String} (member : s ∈ p.suffixes) :
    isIdentifier (p.constant s) = true := by
  have underscore : Spelled "_" := by decide
  exact isIdentifier_append (isIdentifier_append named.stem underscore) (named.spelled_suffixes s member)

end WellNamed

namespace Bakes

theorem constants (baked : p.Bakes t) :
    (allDefines t).map Prod.fst = p.constantSuffixes.map p.constant := by
  obtain ⟨made, rfl⟩ := baked.grown
  have own : p.emptyTable.defines.map Prod.fst = [p.constant p.mark] := by cases p <;> rfl
  have sides : (sideDefines (p.emptyTable.extend made)).map Prod.fst =
      (if usesSize p.emptyTable then [p.shape.sizeName] else ["WIDTH", "HEIGHT"]).map p.constant := by
    have size : usesSize (p.emptyTable.extend made) = usesSize p.emptyTable := rfl
    rw [sideDefines, size]
    split <;> rfl
  rw [allDefines, constantSuffixes, List.map_append, List.map_append, List.map_cons, sides]
  exact congrArg (_ ++ _ :: ·) own

theorem declarable (baked : p.Bakes t) (named : p.WellNamed) : Declarable t := by
  have oneLine : ∀ {text : String}, Spelled text → OneLine text := fun spelled =>
    spelled.free (by decide) (by decide)
  have defined := baked.constants
  have listed := baked.ids
  have kept : t.stem = p.stem ∧ t.shape = p.shape ∧ t.defines = p.emptyTable.defines := by
    obtain ⟨made, rfl⟩ := baked.grown
    exact ⟨rfl, rfl, rfl⟩
  obtain ⟨stem, shape, defines⟩ := kept
  have value : ∀ d ∈ p.emptyTable.defines, OneLine d.2 := by
    have lead : Spelled "0x" := by decide
    have ending : Spelled "u" := by decide
    intro d member
    cases p with
    | glyphs p =>
      obtain rfl := List.mem_singleton.mp member
      exact oneLine (lead.append (spelled_hexUpper 2 _))
    | icons p =>
      obtain rfl := List.mem_singleton.mp member
      exact oneLine ((lead.append (spelled_hexUpper 8 _)).append ending)
  constructor
  · constructor
    · rw [baked.name]
      exact oneLine (spelled_identifier named.name)
    · rw [stem]
      exact oneLine (spelled_identifier named.stem)
    · rw [shape]
      exact oneLine (spelled_identifier named.countName)
    · rw [shape]
      exact oneLine (spelled_identifier named.sizeName)
  · intro d member
    have present : d.1 ∈ p.constantSuffixes.map p.constant := defined ▸ List.mem_map_of_mem member
    obtain ⟨s, suffix, same⟩ := List.mem_map.mp present
    rw [← same]
    exact named.isIdentifier_constant (List.mem_append_left _ suffix)
  · rw [defines]
    exact value
  · intro e member
    have present : e.id ∈ p.indexSuffixes.map p.constant :=
      listed ▸ List.mem_map_of_mem (Array.mem_toList_iff.mpr member)
    obtain ⟨s, suffix, same⟩ := List.mem_map.mp present
    rw [← same]
    exact named.isIdentifier_constant (List.mem_append_right _ suffix)

theorem introduced (baked : p.Bakes t) (named : p.WellNamed) (header : String) :
    introduced (Listing.declarations t header) = p.suffixes.map p.constant := by
  rw [(baked.declarable named).introduced, baked.constants, baked.ids, suffixes, List.map_append]

end Bakes

/-- The names that the declarations of a baked table introduce behind the guard are identifiers, and
    no two of them are the same. -/
theorem names_apart {c : Config} (valid : c.check = .ok ()) (member : p ∈ c.profiles)
    (baked : p.Bakes t) (header : String) :
    introduced (Listing.declarations t header) = p.suffixes.map p.constant ∧
      (∀ name ∈ introduced (Listing.declarations t header), isIdentifier name = true) ∧
      (introduced (Listing.declarations t header)).Nodup := by
  have named := wellNamed valid member
  have names := baked.introduced named header
  rw [names]
  refine ⟨rfl, ?_, named.suffixes_nodup.map p.constant_injective⟩
  exact List.forall_mem_map.mpr fun s suffix => named.isIdentifier_constant suffix

def neighbours : GlyphProfile :=
  { GlyphProfile.standard with
    stem := "T"
    cellWidth := 2
    cellHeight := 2
    firstChar := '0'
    count := 2
    shape := { layout := .flat, countName := "U0032", sizeName := "U002F" } }

theorem names_apart_neighbours :
    Config.check { glyphs := [neighbours] } = .ok () ∧ ∃ t, (glyphs neighbours).Bakes t ∧
      Listing.introduced (Listing.declarations t "t.h") = ["T_U002F", "T_U0032", "T_FIRST", "T_U0030", "T_U0031"] ∧
      (Listing.introduced (Listing.declarations t "t.h")).Nodup := by
  have valid : Config.check { glyphs := [neighbours] } = .ok () := by
    rw [← toOption_eq_some]
    decide +kernel
  obtain ⟨t, baked⟩ := neighbours.bake_ok (fun ch _ s => (.error (.unsupported ch), s)) ()
  obtain ⟨names, _, distinct⟩ := names_apart valid (p := glyphs neighbours) (by simp [Config.profiles])
    (.glyphs baked) "t.h"
  have suffixes : (glyphs neighbours).suffixes.map (glyphs neighbours).constant =
      ["T_U002F", "T_U0032", "T_FIRST", "T_U0030", "T_U0031"] := by
    decide +kernel
  exact ⟨valid, t, .glyphs baked, names.trans suffixes, distinct⟩

end PixelTables.Profile
