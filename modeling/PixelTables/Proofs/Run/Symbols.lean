import PixelTables.Proofs.Run.Guards

namespace PixelTables

/-- Stems `a` and `b` and their suffixes `s` and `r` that make one name: the same ones, or one stem
    goes on beyond the other by as much as its suffix is shorter. -/
inductive OneName (a s b r : String) : Prop
  | same (stem : b = a) (suffix : s = r) : OneName a s b r
  | longer (more : String) (stem : b = a ++ "_" ++ more) (suffix : s = more ++ "_" ++ r) :
      OneName a s b r
  | shorter (more : String) (stem : a = b ++ "_" ++ more) (suffix : r = more ++ "_" ++ s) :
      OneName a s b r

theorem stem_cases {a s b r : String} {more : List Char} (front : b.toList = a.toList ++ more)
    (back : '_' :: s.toList = more ++ '_' :: r.toList) :
    b = a ∧ s = r ∨ ∃ more, b = a ++ "_" ++ more ∧ s = more ++ "_" ++ r := by
  simp only [← String.toList_inj, String.toList_append]
  cases more with
  | nil => exact .inl ⟨by simpa using front, by simpa using back⟩
  | cons c more =>
    obtain ⟨rfl, behind⟩ := List.cons.inj back
    exact .inr ⟨String.ofList more, by simpa using front, by simpa using behind⟩

theorem oneName_iff {a s b r : String} : a ++ "_" ++ s = b ++ "_" ++ r ↔ OneName a s b r := by
  constructor
  · intro equal
    have chars : a.toList ++ '_' :: s.toList = b.toList ++ '_' :: r.toList := by
      simpa [← String.toList_inj] using equal
    rcases List.append_eq_append_iff.mp chars with ⟨more, front, back⟩ | ⟨more, front, back⟩
    · rcases stem_cases front back with ⟨stem, suffix⟩ | ⟨more, stem, suffix⟩
      · exact .same stem suffix
      · exact .longer more stem suffix
    · rcases stem_cases front back with ⟨stem, suffix⟩ | ⟨more, stem, suffix⟩
      · exact .same stem.symm suffix.symm
      · exact .shorter more stem suffix
  · rintro (⟨rfl, rfl⟩ | ⟨more, rfl, rfl⟩ | ⟨more, rfl, rfl⟩)
    · rfl
    · simp only [String.append_assoc]
    · simp only [String.append_assoc]

namespace Listing

def symbols (text : String) : List String :=
  ((declared? text).map arrayName).toList ++ introduced text

end Listing

namespace Profile

open Listing

variable {p q : Profile}

def symbols (p : Profile) : List String := p.name :: p.suffixes.map p.constant

def Clashes (p q : Profile) : Prop :=
  ∃ s ∈ p.suffixes, ∃ r ∈ q.suffixes, OneName p.stem s q.stem r

theorem clashes_iff :
    p.Clashes q ↔ ¬ (p.suffixes.map p.constant).Disjoint (q.suffixes.map q.constant) := by
  simp only [Clashes, ← oneName_iff, List.disjoint_left, List.mem_map, not_forall, not_not,
    exists_prop, constant]
  constructor
  · rintro ⟨s, first, r, second, same⟩
    exact ⟨_, ⟨s, first, rfl⟩, r, second, same.symm⟩
  · rintro ⟨_, ⟨s, first, rfl⟩, r, second, same⟩
    exact ⟨s, first, r, second, same.symm⟩

theorem clashes_of_stem (stem : q.stem = p.stem) (kind : q.mark = p.mark) : p.Clashes q := by
  have marked : ∀ r : Profile, r.mark ∈ r.suffixes := by
    intro r
    simp [suffixes, constantSuffixes]
  exact ⟨p.mark, marked p, q.mark, marked q, .same stem kind.symm⟩

theorem symbols_nodup_iff (named : p.WellNamed) :
    p.symbols.Nodup ↔ ∀ s ∈ p.suffixes, p.name ≠ p.constant s := by
  have own := named.suffixes_nodup.map p.constant_injective
  simp [symbols, own, eq_comm]

theorem symbols_disjoint_iff (names : p.name ≠ q.name) :
    p.symbols.Disjoint q.symbols ↔
      ((∀ s ∈ q.suffixes, p.name ≠ q.constant s) ∧ ∀ s ∈ p.suffixes, q.name ≠ p.constant s) ∧
        ¬ p.Clashes q := by
  rw [clashes_iff, not_not, symbols, symbols, List.disjoint_cons_left, List.disjoint_cons_right]
  simp only [List.mem_cons, names, false_or, List.mem_map, not_exists, not_and, ne_eq, eq_comm,
    and_assoc]

end Profile

namespace Config

open Listing

variable {c : Config} {p : Profile}

theorem symbols_of_declares (named : p.WellNamed) {h : Header} (declares : c.Declares p h) :
    symbols h.text = p.symbols := by
  have readable := readable_of_declares named declares
  rw [Listing.symbols, Header.text, readable.declarable.declared?, Option.map_some,
    arrayName_declarator readable.array, declares.baked.introduced named, declares.baked.name]
  rfl

theorem symbols_nodup_iff_of_declares (valid : c.check = .ok ()) {hs : List Header}
    (declares : List.Forall₂ c.Declares c.profiles hs) :
    (hs.flatMap fun h => symbols h.text).Nodup ↔
      (∀ p ∈ c.profiles, ∀ q ∈ c.profiles, ∀ s ∈ q.suffixes, p.name ≠ q.constant s) ∧
        c.profiles.Pairwise fun p q => ¬ p.Clashes q := by
  have named : ∀ p ∈ c.profiles, p.WellNamed := fun p member => Profile.wellNamed valid member
  have names : c.profiles.Pairwise fun p q => p.name ≠ q.name := by
    rw [← List.pairwise_map]
    exact c.profile_names_nodup valid
  have read : hs.map (fun h => symbols h.text) = c.profiles.map Profile.symbols := by
    have each : List.Forall₂ (fun p h => p ∈ c.profiles ∧ c.Declares p h) c.profiles hs :=
      (List.forall₂_and_left c.profiles hs).mpr ⟨fun p member => member, declares⟩
    exact map_eq_map_of_forall₂ each fun p h own => symbols_of_declares (named p own.1) own.2
  rw [List.flatMap_def, read, ← List.flatMap_def, List.nodup_flatMap]
  constructor
  · rintro ⟨own, across⟩
    have apart := (names.and across).imp fun h => (Profile.symbols_disjoint_iff h.1).mp h.2
    refine ⟨?_, apart.imp And.right⟩
    exact List.Pairwise.forall_of_forall_of_flip
      (fun p member => (Profile.symbols_nodup_iff (named p member)).mp (own p member))
      (apart.imp fun h => h.1.1) (apart.imp fun h => h.1.2)
  · rintro ⟨arrays, apart⟩
    refine ⟨fun p member => ?_, ?_⟩
    · exact (Profile.symbols_nodup_iff (named p member)).mpr (arrays p member p member)
    · refine (names.and apart).imp_of_mem fun first second h => ?_
      exact (Profile.symbols_disjoint_iff h.1).mpr
        ⟨⟨arrays _ first _ second, arrays _ second _ first⟩, h.2⟩

/-- The names that all headers of a run bring into a program are distinct exactly if no array has
    the name of a constant or an index, of its own table or another, and the constants and indices of
    no two tables clash. -/
theorem symbols_distinct_iff (valid : c.check = .ok ()) :
    (∀ hs, List.Forall₂ c.Declares c.profiles hs →
      ((hs.flatMap fun h => symbols h.text).Nodup ↔
        (∀ p ∈ c.profiles, ∀ q ∈ c.profiles, ∀ s ∈ q.suffixes, p.name ≠ q.constant s) ∧
          c.profiles.Pairwise fun p q => ¬ p.Clashes q)) ∧
      ∀ {τ σ : Type} (loader : Loader τ σ) (t : τ) (d : Disk) (fonts : List σ)
        (products : List Product), (loadFonts loader d c.fontPaths t).1 = .ok fonts →
        (c.bakeAll loader d fonts).1 = .ok products →
        ∃ hs, List.Forall₂ c.Declares c.profiles hs ∧
          products.map (·.artifacts.head?.map (·.contents)) = hs.map fun h => some h.text :=
  ⟨fun _ declares => symbols_nodup_iff_of_declares valid declares, fun _ _ _ _ _ => headers_of_bake⟩

def crowded : Config where
  glyphs := [
    { GlyphProfile.standard with
      name := "T_COUNT"
      stem := "T"
      count := 1
      shape := { countName := "COUNT" }
      declarations := ⟨"t.h"⟩
      data := ⟨"t.c"⟩ },
    { GlyphProfile.standard with
      name := "u"
      stem := "T"
      firstChar := 'B'
      count := 1
      declarations := ⟨"u.h"⟩
      data := ⟨"u.c"⟩ }]

theorem symbols_distinct_iff_crowded :
    crowded.check = .ok () ∧
      (∃ p ∈ crowded.profiles, ∃ s ∈ p.suffixes, p.name = p.constant s) ∧
      ¬ (crowded.profiles.Pairwise fun p q => ¬ p.Clashes q) ∧
      ∃ hs, List.Forall₂ crowded.Declares crowded.profiles hs ∧
        ¬ (hs.flatMap fun h => symbols h.text).Nodup := by
  have valid : crowded.check = .ok () := by
    rw [← toOption_eq_some]
    decide +kernel
  have own : ∃ p ∈ crowded.profiles, ∃ s ∈ p.suffixes, p.name = p.constant s :=
    ⟨.glyphs crowded.glyphs[0], by simp [profiles, crowded], "COUNT", by decide +kernel,
      by decide +kernel⟩
  have clash : ¬ (crowded.profiles.Pairwise fun p q => ¬ p.Clashes q) := by
    simp only [profiles, crowded, List.map_cons, List.map_nil, List.append_nil, List.pairwise_cons,
      List.mem_singleton, forall_eq]
    rintro ⟨apart, _⟩
    exact apart (Profile.clashes_of_stem rfl rfl)
  obtain ⟨hs, declares⟩ := exists_headers (c := crowded) rfl
  refine ⟨valid, own, clash, hs, declares, ?_⟩
  intro distinct
  exact clash ((((symbols_distinct_iff valid).1 hs declares).mp distinct).2)

end Config

end PixelTables
