import PixelTables.Proofs.Listing.Guards
import PixelTables.Proofs.Profile.Names
import PixelTables.Proofs.Run.Written

namespace PixelTables

theorem Path.fileName_ne_empty {p : Path} {name : String} (named : p.fileName = some name) :
    name ≠ "" := by
  obtain ⟨_, before, moves⟩ := moves_of_fileName named
  have active : isIdle name = false := isIdle_of_mem_moves (p := p) (by simp [moves])
  rintro rfl
  cases active

namespace Config

open Listing

variable {c : Config} {p : Profile} {t : Table}

def header (c : Config) (p : Profile) : String :=
  (c.resolve p.declarations).fileName.getD (p.name ++ ".h")

def guard (c : Config) (p : Profile) : String := includeGuard (c.header p)

structure Declares (c : Config) (p : Profile) (h : Header) : Prop where
  baked : p.Bakes h.table
  name : h.name = c.header p

theorem header_ne_empty (c : Config) (p : Profile) : c.header p ≠ "" := by
  rw [header]
  cases named : (c.resolve p.declarations).fileName with
  | some name => exact Path.fileName_ne_empty named
  | none =>
    intro empty
    have chars := congrArg String.toList empty
    simp at chars

theorem contents_of_bake (c : Config) (baked : p.Bakes t) :
    (c.product p.declarations p.data t).artifacts.map (·.contents) =
      [Listing.declarations t (c.header p), Listing.data t (c.header p)] := by
  rw [product, artifacts, baked.name, ← header]
  rfl

theorem guard_of_declares {h : Header} (declares : c.Declares p h) : h.guard = c.guard p := by
  rw [Header.guard, declares.name, guard]

theorem macros_of_declares {h : Header} (declares : c.Declares p h) :
    h.macros = c.guard p :: p.constantSuffixes.map p.constant := by
  rw [← declares.baked.constants, guard, ← declares.name]
  rfl

structure GuardOf (c : Config) (p : Profile) (h : Header) : Prop where
  read : guard? h.text = some (c.guard p)
  identifier : isIdentifier (c.guard p) = true ↔
    (c.header p).toList.head?.any Text.isAsciiDigit = false
  apart : c.guard p ∉ introduced h.text ↔ ∀ s ∈ p.suffixes, Capital (p.constant s) →
    ¬ List.Forall₂ Alike (c.header p).toList (p.constant s).toList

theorem guardOf (named : p.WellNamed) {h : Header} (declares : c.Declares p h) : c.GuardOf p h where
  read := by
    rw [Header.text, (declares.baked.declarable named).guard?, declares.name, guard]
  identifier := isIdentifier_includeGuard (c.header_ne_empty p)
  apart := by
    have equal : ∀ s ∈ p.suffixes, p.constant s = c.guard p ↔ Capital (p.constant s) ∧
        List.Forall₂ Alike (c.header p).toList (p.constant s).toList := by
      intro s suffix
      rw [eq_comm]
      exact includeGuard_eq_name_iff (spelled_identifier (named.isIdentifier_constant suffix))
    rw [Header.text, declares.baked.introduced named, List.mem_map, not_exists]
    refine forall_congr' fun s => ?_
    rw [not_and]
    refine forall_congr' fun suffix => ?_
    rw [equal s suffix, not_and]

theorem readable_of_declares (named : p.WellNamed) {h : Header} (declares : c.Declares p h) :
    h.Readable := by
  refine ⟨declares.baked.declarable named, ?_⟩
  rw [declares.baked.name]
  exact spelled_identifier named.name

theorem guards_nodup_iff (c : Config) : (c.profiles.map c.guard).Nodup ↔
    c.profiles.Pairwise fun p q => ¬ List.Forall₂ Alike (c.header p).toList (c.header q).toList := by
  rw [List.Nodup, List.pairwise_map]
  simp only [guard, ne_eq, includeGuard_eq_iff]

theorem headers_declare_iff (valid : c.check = .ok ()) {hs : List Header}
    (declares : List.Forall₂ c.Declares c.profiles hs) :
    (∀ h ∈ hs, h.table.name ∈ (Included.takeAll {} (hs.map Header.text)).arrays) ↔
      (∀ p ∈ c.profiles, isIdentifier (c.guard p) = true) ∧ c.profiles.Pairwise fun p q =>
        c.guard q ≠ c.guard p ∧ ∀ s ∈ p.constantSuffixes, c.guard q ≠ p.constant s := by
  have readable : ∀ h ∈ hs, h.Readable := by
    intro h member
    obtain ⟨p, profile, own⟩ := exists_of_mem_right declares member
    exact readable_of_declares (Profile.wellNamed valid profile) own
  have names : hs.map (·.table.name) = c.profiles.map (·.name) :=
    map_eq_map_of_forall₂ declares fun _ _ own => own.baked.name
  have distinct : (hs.map (·.table.name)).Nodup := names ▸ c.profile_names_nodup valid
  -- what headers have to be compared by is the same as for their profiles
  have defined : hs.map (fun h => (h.guard, h.macros)) =
      c.profiles.map fun p => (c.guard p, c.guard p :: p.constantSuffixes.map p.constant) :=
    map_eq_map_of_forall₂ declares fun _ _ own => by
      rw [guard_of_declares own, macros_of_declares own]
  have pairs : (hs.Pairwise fun h k => k.guard ∉ h.macros) ↔
      (hs.map fun h => (h.guard, h.macros)).Pairwise fun x y => y.1 ∉ x.2 := by
    rw [List.pairwise_map]
  have counts : (∀ h ∈ hs, Included.Counts {} h) ↔
      ∀ x ∈ hs.map (fun h => (h.guard, h.macros)), isIdentifier x.1 = true := by
    simp [Included.Counts]
  rw [Included.takeAll_declares_iff {} readable distinct (by simp), counts, pairs, defined,
    List.forall_mem_map, List.pairwise_map]
  refine and_congr Iff.rfl ?_
  simp [eq_comm]

theorem headers_of_bake {τ σ : Type} {loader : Loader τ σ} {t : τ} {d : Disk} {fonts : List σ}
    {products : List Product} (load : (loadFonts loader d c.fontPaths t).1 = .ok fonts)
    (bake : (c.bakeAll loader d fonts).1 = .ok products) :
    ∃ hs, List.Forall₂ c.Declares c.profiles hs ∧
      products.map (·.artifacts.head?.map (·.contents)) = hs.map fun h => some h.text := by
  have length : fonts.length = c.glyphs.length := by
    rw [loadFonts_length load, fontPaths, List.length_map]
  have made := bakeAll_products length bake
  clear load bake
  generalize c.profiles = profiles at made ⊢
  induction made with
  | nil => exact ⟨[], .nil, rfl⟩
  | @cons p product _ _ first _ ih =>
    obtain ⟨hs, declares, same⟩ := ih
    obtain ⟨table, baked, rfl⟩ := first
    have contents : (c.product p.declarations p.data table).artifacts.head?.map (·.contents) =
        some (Listing.declarations table (c.header p)) := by
      rw [← List.head?_map, contents_of_bake c baked, List.head?_cons]
    exact ⟨⟨table, c.header p⟩ :: hs, .cons ⟨baked, rfl⟩ declares, by
      rw [List.map_cons, List.map_cons, same, contents]
      rfl⟩

/-- How far the guards of a valid configuration serve. A guard is an identifier unless the name of
    its file starts with a digit; it is none of the names behind it unless it has that of a constant
    or an index; two are different unless their files' names are alike character by character; and
    including all headers, without expanding macros, declares all tables unless a guard is no
    identifier, or that of an earlier header or one of its constants. -/
theorem guards_serve_iff (valid : c.check = .ok ()) :
    (∀ p ∈ c.profiles, ∀ h, c.Declares p h → c.GuardOf p h) ∧
      ((c.profiles.map c.guard).Nodup ↔ c.profiles.Pairwise fun p q =>
        ¬ List.Forall₂ Alike (c.header p).toList (c.header q).toList) ∧
      (∀ hs, List.Forall₂ c.Declares c.profiles hs →
        ((∀ h ∈ hs, h.table.name ∈ (Included.takeAll {} (hs.map Header.text)).arrays) ↔
          (∀ p ∈ c.profiles, isIdentifier (c.guard p) = true) ∧ c.profiles.Pairwise fun p q =>
            c.guard q ≠ c.guard p ∧ ∀ s ∈ p.constantSuffixes, c.guard q ≠ p.constant s)) ∧
      ∀ {τ σ : Type} (loader : Loader τ σ) (t : τ) (d : Disk) (fonts : List σ)
        (products : List Product), (loadFonts loader d c.fontPaths t).1 = .ok fonts →
        (c.bakeAll loader d fonts).1 = .ok products →
        ∃ hs, List.Forall₂ c.Declares c.profiles hs ∧
          products.map (·.artifacts.head?.map (·.contents)) = hs.map fun h => some h.text := by
  refine ⟨fun p member h declares => guardOf (Profile.wellNamed valid member) declares,
    c.guards_nodup_iff, fun hs declares => headers_declare_iff valid declares,
    fun _ _ _ _ _ => headers_of_bake⟩

def clashing : Config where
  glyphs := [
    { GlyphProfile.standard with
      name := "t"
      stem := "T"
      count := 1
      shape := { countName := "H" }
      declarations := ⟨"t.h"⟩
      data := ⟨"t.c"⟩ },
    { GlyphProfile.standard with
      name := "narrow"
      count := 1
      declarations := ⟨"a/8x16.h"⟩
      data := ⟨"a/8x16.c"⟩ },
    { GlyphProfile.standard with
      name := "wide"
      count := 1
      declarations := ⟨"b/8x16.h"⟩
      data := ⟨"b/8x16.c"⟩ }]

theorem exists_headers {c : Config} (none : c.icons = []) :
    ∃ hs, List.Forall₂ c.Declares c.profiles hs := by
  rw [profiles, none, List.map_nil, List.append_nil]
  generalize c.glyphs = glyphs
  induction glyphs with
  | nil => exact ⟨[], .nil⟩
  | cons p rest ih =>
    obtain ⟨hs, declares⟩ := ih
    obtain ⟨t, baked⟩ := p.bake_ok (fun ch _ s => (.error (.unsupported ch), s)) ()
    exact ⟨⟨t, c.header (.glyphs p)⟩ :: hs, .cons ⟨.glyphs baked, rfl⟩ declares⟩

theorem guards_serve_iff_clashing :
    clashing.check = .ok () ∧ clashing.profiles.map clashing.guard = ["T_H", "8X16_H", "8X16_H"] ∧
      ∃ hs, List.Forall₂ clashing.Declares clashing.profiles hs ∧
        (∃ p ∈ clashing.profiles, isIdentifier (clashing.guard p) = false) ∧
        (∃ h ∈ hs, h.guard ∈ introduced h.text) ∧
        ∃ h ∈ hs, h.table.name ∉ (Included.takeAll {} (hs.map Header.text)).arrays := by
  have valid : clashing.check = .ok () := by
    rw [← toOption_eq_some]
    decide +kernel
  have guards : clashing.profiles.map clashing.guard = ["T_H", "8X16_H", "8X16_H"] := by
    decide +kernel
  obtain ⟨hs, declares⟩ := exists_headers (c := clashing) rfl
  obtain ⟨each, _, all, _⟩ := guards_serve_iff valid
  refine ⟨valid, guards, hs, declares, ?_, ?_, ?_⟩
  · have second : "8X16_H" ∈ clashing.profiles.map clashing.guard := by simp [guards]
    obtain ⟨p, member, same⟩ := List.mem_map.mp second
    exact ⟨p, member, by rw [same]; decide⟩
  · have member : Profile.glyphs clashing.glyphs[0] ∈ clashing.profiles := by
      simp [profiles, clashing]
    obtain ⟨h, present, own⟩ := exists_of_mem_right declares.flip member
    refine ⟨h, present, ?_⟩
    by_contra fresh
    rw [guard_of_declares own] at fresh
    exact (each _ member h own).apart.mp fresh "H" (by decide +kernel) (by decide +kernel)
      (includeGuard_eq_iff.mp (by decide +kernel))
  · by_contra none
    simp only [not_exists, not_and, not_not] at none
    obtain ⟨_, apart⟩ := (all hs declares).mp none
    have distinct : (clashing.profiles.map clashing.guard).Pairwise fun x y => y ≠ x := by
      rw [List.pairwise_map]
      exact apart.imp And.left
    rw [guards] at distinct
    exact absurd distinct (by decide)

end Config

end PixelTables
