import PixelTables.Proofs.Listing.Names

namespace PixelTables.Listing

def readGuard? (line : Line) : Option String :=
  ("#ifndef ".toList.isPrefixOf? line).map String.ofList

def guard? (text : String) : Option String := (lines text).findSome? readGuard?

theorem Declarable.guard? {t : Table} (declarable : Declarable t) (header : String) :
    guard? (declarations t header) = some (includeGuard header) := by
  have banner : readGuard? "// Generated by cellbake. Do not edit.".toList = none := by decide
  have blank : readGuard? [] = none := by decide
  have condition : readGuard? ("#ifndef " ++ includeGuard header).toList = some (includeGuard header) := by
    rw [readGuard?, String.toList_append, isPrefixOf?_append, Option.map_some, String.ofList_toList]
  rw [Listing.guard?, declarable.lines, declarationLines, guardLines]
  simp only [List.cons_append, List.findSome?_cons, banner, blank, condition]

section Characters

def guardChar (c : Char) : Char := if Text.isAsciiAlphanumeric c then Text.upperAscii c else '_'

theorem toList_includeGuard (header : String) :
    (includeGuard header).toList = header.toList.map guardChar := by
  rw [includeGuard, String.toList_ofList]
  rfl

theorem isAsciiDigit_upperAscii (c : Char) :
    Text.isAsciiDigit (Text.upperAscii c) = Text.isAsciiDigit c := by
  have capital : ∀ n < 26, Text.isAsciiDigit (Char.ofNat (0x41 + n)) = false := by decide
  rcases upperAscii_cases c with same | ⟨n, small, code, upper⟩
  · rw [same]
  · have letter : Text.isAsciiLetter c = true := by
      simp only [Text.isAsciiLetter, Bool.or_eq_true, Bool.and_eq_true, decide_eq_true_eq]
      omega
    rw [upper, capital n small, isAsciiDigit_of_letter letter]

theorem isAsciiDigit_guardChar (c : Char) : Text.isAsciiDigit (guardChar c) = Text.isAsciiDigit c := by
  rw [guardChar]
  split
  · exact isAsciiDigit_upperAscii c
  · rename_i other
    have none : Text.isAsciiDigit c = false := by
      simp only [Text.isAsciiAlphanumeric, Bool.or_eq_true, not_or, Bool.not_eq_true] at other
      exact other.2
    rw [none]
    decide

theorem isIdentifier_includeGuard {header : String} (filled : header ≠ "") :
    isIdentifier (includeGuard header) = true ↔ header.toList.head?.any Text.isAsciiDigit = false := by
  rw [isIdentifier_iff, toList_includeGuard]
  cases chars : header.toList with
  | nil => exact absurd (String.toList_eq_nil_iff.mp chars) filled
  | cons c rest => simp [spelled_includeGuard, isAsciiDigit_guardChar]

/-- Characters that guards do not tell apart: a letter in either case, and whatever is neither a
    letter nor a digit. -/
inductive Alike : Char → Char → Prop
  | spelled {a b : Char} (first : Text.isAsciiAlphanumeric a = true)
      (second : Text.isAsciiAlphanumeric b = true) (same : Text.upperAscii a = Text.upperAscii b) :
      Alike a b
  | replaced {a b : Char} (first : Text.isAsciiAlphanumeric a = false)
      (second : Text.isAsciiAlphanumeric b = false) : Alike a b

theorem upperAscii_ne_underscore {c : Char} (good : Text.isAsciiAlphanumeric c = true) :
    Text.upperAscii c ≠ '_' := by
  intro same
  have kept := isAsciiAlphanumeric_upperAscii good
  rw [same] at kept
  exact absurd kept (by decide)

theorem guardChar_eq_iff {a b : Char} : guardChar a = guardChar b ↔ Alike a b := by
  constructor
  · intro same
    cases first : Text.isAsciiAlphanumeric a <;> cases second : Text.isAsciiAlphanumeric b <;>
      simp only [guardChar, first, second, ↓reduceIte, Bool.false_eq_true] at same
    · exact .replaced first second
    · exact absurd same.symm (upperAscii_ne_underscore second)
    · exact absurd same (upperAscii_ne_underscore first)
    · exact .spelled first second same
  · rintro (⟨first, second, same⟩ | ⟨first, second⟩)
    · simp [guardChar, first, second, same]
    · simp [guardChar, first, second]

theorem includeGuard_eq_iff {a b : String} :
    includeGuard a = includeGuard b ↔ List.Forall₂ Alike a.toList b.toList := by
  rw [← String.toList_inj, toList_includeGuard, toList_includeGuard, ← List.forall₂_eq_eq_eq,
    List.forall₂_map_left_iff, List.forall₂_map_right_iff]
  simp only [guardChar_eq_iff]

def Capital (text : String) : Prop := ∀ c ∈ text.toList, Text.upperAscii c = c

instance (text : String) : Decidable (Capital text) := List.decidableBAll _ text.toList

theorem upperAscii_guardChar (c : Char) : Text.upperAscii (guardChar c) = guardChar c := by
  have capital : ∀ n < 26, Text.upperAscii (Char.ofNat (0x41 + n)) = Char.ofNat (0x41 + n) := by decide
  rw [guardChar]
  split
  · rcases upperAscii_cases c with same | ⟨n, small, _, upper⟩
    · rw [same, same]
    · rw [upper, capital n small]
  · decide

theorem capital_includeGuard (header : String) : Capital (includeGuard header) := by
  rw [Capital, toList_includeGuard]
  exact List.forall_mem_map.mpr fun c _ => upperAscii_guardChar c

theorem includeGuard_of_capital {name : String} (spelled : Spelled name) (capital : Capital name) :
    includeGuard name = name := by
  have kept : ∀ c ∈ name.toList, guardChar c = id c := by
    intro c member
    rcases spelled c member with good | rfl
    · rw [guardChar, if_pos good, capital c member, id]
    · decide
  rw [← String.toList_inj, toList_includeGuard, List.map_congr_left kept, List.map_id]

/-- A name is the guard of the files whose names are like it, if it has no small letters. -/
theorem includeGuard_eq_name_iff {header name : String} (spelled : Spelled name) :
    includeGuard header = name ↔ Capital name ∧ List.Forall₂ Alike header.toList name.toList := by
  constructor
  · rintro rfl
    have again := includeGuard_of_capital spelled (capital_includeGuard header)
    exact ⟨capital_includeGuard header, includeGuard_eq_iff.mp again.symm⟩
  · rintro ⟨capital, alike⟩
    rw [includeGuard_eq_iff.mpr alike, includeGuard_of_capital spelled capital]

end Characters

def arrayName (declarator : Line) : String :=
  String.ofList ((Text.pieces ' ' (declarator.takeWhile (· ≠ '['))).getLastD [])

theorem arrayName_declarator {t : Table} (spelled : Spelled t.name) :
    arrayName (declarator t).toList = t.name := by
  have parts : (declarator t).toList = (elementType t.format).toList ++ ' ' :: t.name.toList ++
      '[' :: (countDimension t ++ "]" ++ cellDimensions t).toList := by
    simp [declarator, toString]
  have element : '[' ∉ (elementType t.format).toList := by cases t.format <;> decide
  have free : '[' ∉ t.name.toList := spelled.free (by decide) (by decide)
  have inside : ∀ c ∈ (elementType t.format).toList ++ ' ' :: t.name.toList, decide (c ≠ '[') = true := by
    intro c member
    rw [decide_eq_true_eq]
    rintro rfl
    simp [element, free] at member
  have word : Text.pieces ' ' t.name.toList = [t.name.toList] :=
    Text.pieces_of_free (spelled.free (by decide) (by decide))
  rw [arrayName, parts, List.takeWhile_append_of_pos inside, List.takeWhile_cons]
  simp [Text.pieces_append, word]

structure Included where
  macros : List String := []
  arrays : List String := []

/-- Includes one more text. Nothing in it counts where its condition is not well-formed, the guard
    being no identifier, or where the guard is defined already. What does count is taken as it is
    written: macros are not expanded in it. -/
def Included.take (seen : Included) (text : String) : Included :=
  if (guard? text).all fun guard => isIdentifier guard && guard ∉ seen.macros then
    ⟨seen.macros ++ (readDefinitions text).names,
      seen.arrays ++ ((declared? text).map arrayName).toList⟩
  else seen

def Included.takeAll (seen : Included) (texts : List String) : Included := texts.foldl .take seen

structure Header where
  table : Table
  name : String

namespace Header

def guard (h : Header) : String := includeGuard h.name

def text (h : Header) : String := declarations h.table h.name

def macros (h : Header) : List String := (definitions h.table h.name).names

structure Readable (h : Header) : Prop where
  declarable : Declarable h.table
  array : Spelled h.table.name

end Header

namespace Included

variable {h : Header} {hs : List Header} {seen : Included}

def Counts (seen : Included) (h : Header) : Prop :=
  isIdentifier h.guard = true ∧ h.guard ∉ seen.macros

theorem take_counts (readable : h.Readable) (counts : seen.Counts h) :
    seen.take h.text = ⟨seen.macros ++ h.macros, seen.arrays ++ [h.table.name]⟩ := by
  rw [take, Header.text, readable.declarable.guard?, readable.declarable.readDefinitions,
    readable.declarable.declared?, Option.map_some, arrayName_declarator readable.array]
  exact if_pos (by simpa [Counts, Header.guard] using counts)

theorem take_skips (readable : h.Readable) (skipped : ¬ seen.Counts h) :
    seen.take h.text = seen := by
  rw [take, Header.text, readable.declarable.guard?]
  exact if_neg (by simpa [Counts, Header.guard] using skipped)

theorem takeAll_cons (text : String) (texts : List String) :
    seen.takeAll (text :: texts) = (seen.take text).takeAll texts := rfl

theorem arrays_takeAll (seen : Included) (readable : ∀ h ∈ hs, h.Readable) (name : String) :
    (name ∈ seen.arrays → name ∈ (seen.takeAll (hs.map Header.text)).arrays) ∧
      (name ∈ (seen.takeAll (hs.map Header.text)).arrays →
        name ∈ seen.arrays ∨ name ∈ hs.map (·.table.name)) := by
  induction hs generalizing seen with
  | nil => exact ⟨id, .inl⟩
  | cons h rest ih =>
    obtain ⟨first, later⟩ := List.forall_mem_cons.mp readable
    rw [List.map_cons, takeAll_cons, List.map_cons]
    by_cases counts : seen.Counts h
    · obtain ⟨kept, added⟩ := ih (seen.take h.text) later
      rw [take_counts first counts] at kept added ⊢
      refine ⟨fun member => kept (List.mem_append_left _ member), fun member => ?_⟩
      rcases added member with old | new
      · rcases List.mem_append.mp old with old | own
        · exact .inl old
        · exact .inr (by simp [List.mem_singleton.mp own])
      · exact .inr (List.mem_cons_of_mem _ new)
    · obtain ⟨kept, added⟩ := ih seen later
      rw [take_skips first counts]
      exact ⟨kept, fun member => (added member).imp_right (List.mem_cons_of_mem _)⟩

/-- Every array is declared exactly if all guards are identifiers and none is defined before its own
    header is reached. -/
theorem takeAll_declares_iff (seen : Included) (readable : ∀ h ∈ hs, h.Readable)
    (distinct : (hs.map (·.table.name)).Nodup) (fresh : ∀ h ∈ hs, h.table.name ∉ seen.arrays) :
    (∀ h ∈ hs, h.table.name ∈ (seen.takeAll (hs.map Header.text)).arrays) ↔
      (∀ h ∈ hs, seen.Counts h) ∧ hs.Pairwise fun h k => k.guard ∉ h.macros := by
  -- for whatever was seen before: the macros of a header that counts are seen by all later ones
  induction hs generalizing seen with
  | nil => simp
  | cons h rest ih =>
    obtain ⟨first, later⟩ := List.forall_mem_cons.mp readable
    obtain ⟨new, others⟩ := List.forall_mem_cons.mp fresh
    obtain ⟨apart, distinct⟩ := List.nodup_cons.mp distinct
    rw [List.map_cons, takeAll_cons, List.forall_mem_cons, List.forall_mem_cons, List.pairwise_cons]
    by_cases counts : seen.Counts h
    · have unseen : ∀ k ∈ rest, k.table.name ∉ seen.arrays ++ [h.table.name] := by
        intro k member taken
        rcases List.mem_append.mp taken with old | own
        · exact others k member old
        · exact apart (List.mem_map.mpr ⟨k, member, List.mem_singleton.mp own⟩)
      have tail := ih ⟨seen.macros ++ h.macros, seen.arrays ++ [h.table.name]⟩ later distinct unseen
      have own := (arrays_takeAll ⟨seen.macros ++ h.macros, seen.arrays ++ [h.table.name]⟩ later
        h.table.name).1 (by simp)
      rw [take_counts first counts, tail]
      simp only [Counts, List.mem_append, not_or, forall_and] at counts ⊢
      tauto
    · rw [take_skips first counts]
      constructor
      · -- a header that is skipped is made up for by no other one
        rintro ⟨declared, _⟩
        rcases (arrays_takeAll seen later _).2 declared with old | other
        · exact absurd old new
        · exact absurd other apart
      · exact fun ⟨⟨own, _⟩, _⟩ => absurd own counts

end Included

end PixelTables.Listing
