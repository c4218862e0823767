import PixelTables.Proofs.Listing.Declarations

namespace PixelTables.Listing

theorem isAsciiDigit_of_letter {c : Char} (letter : Text.isAsciiLetter c = true) :
    Text.isAsciiDigit c = false := by
  simp only [Text.isAsciiLetter, Text.isAsciiDigit, Bool.or_eq_true, Bool.and_eq_true,
    decide_eq_true_eq, Bool.and_eq_false_iff, decide_eq_false_iff_not] at letter ⊢
  omega

theorem isIdentifier_iff (name : String) : isIdentifier name = true ↔
    Spelled name ∧ ∃ c, name.toList.head? = some c ∧ Text.isAsciiDigit c = false := by
  constructor
  · intro identifier
    refine ⟨spelled_identifier identifier, ?_⟩
    simp only [isIdentifier] at identifier
    cases chars : name.toList with
    | nil => simp [chars] at identifier
    | cons first rest =>
      rw [chars] at identifier
      simp only [Bool.and_eq_true, Bool.or_eq_true, decide_eq_true_eq] at identifier
      refine ⟨first, rfl, ?_⟩
      rcases identifier.1 with letter | rfl
      · exact isAsciiDigit_of_letter letter
      · decide
  · rintro ⟨spelled, c, head, other⟩
    obtain ⟨rest, chars⟩ := List.head?_eq_some_iff.mp head
    rw [Spelled, chars, List.forall_mem_cons] at spelled
    simp only [isIdentifier, chars, Bool.and_eq_true, Bool.or_eq_true, decide_eq_true_eq,
      List.all_eq_true]
    refine ⟨?_, spelled.2⟩
    rcases spelled.1 with good | line
    · simp only [Text.isAsciiAlphanumeric, other, Bool.or_false] at good
      exact .inl good
    · exact .inr line

theorem Spelled.append {a b : String} (first : Spelled a) (second : Spelled b) : Spelled (a ++ b) := by
  intro c member
  rw [String.toList_append, List.mem_append] at member
  exact member.elim (first c) (second c)

theorem isIdentifier_append {a b : String} (identifier : isIdentifier a = true) (spelled : Spelled b) :
    isIdentifier (a ++ b) = true := by
  obtain ⟨first, c, head, other⟩ := (isIdentifier_iff a).mp identifier
  refine (isIdentifier_iff _).mpr ⟨first.append spelled, c, ?_, other⟩
  rw [String.toList_append, List.head?_append, head, Option.some_or]

theorem spelled_hexUpper (width n : Nat) : Spelled (Text.hexUpper width n) := by
  have digit : ∀ d < 16, Text.isAsciiAlphanumeric (Text.hexDigit true d) = true := by decide
  intro c member
  rw [Text.hexUpper, String.toList_ofList] at member
  obtain ⟨d, small, rfl⟩ := of_mem_hexDigits member
  exact .inl (digit d small)

end PixelTables.Listing
