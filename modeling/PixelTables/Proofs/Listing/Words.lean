import PixelTables.Proofs.Listing.Reading
import PixelTables.Proofs.Text.Pieces

namespace PixelTables.Listing

theorem of_mem_hexDigits {upper : Bool} {width n : Nat} {c : Char}
    (member : c ∈ Text.hexDigits upper width n) : ∃ d < 16, c = Text.hexDigit upper d := by
  induction width generalizing n with
  | zero => simp [Text.hexDigits] at member
  | succ width ih =>
    rw [Text.hexDigits, List.mem_append, List.mem_singleton] at member
    rcases member with member | rfl
    · exact ih member
    · exact ⟨n % 16, Nat.mod_lt _ (by decide), rfl⟩

theorem isAlphanum_of_mem_hexDigits {upper : Bool} {width n : Nat} {c : Char}
    (member : c ∈ Text.hexDigits upper width n) : c.isAlphanum = true := by
  have digit : ∀ d < 16, (Text.hexDigit upper d).isAlphanum = true := by cases upper <;> decide
  obtain ⟨d, small, rfl⟩ := of_mem_hexDigits member
  exact digit d small

theorem isAlphanum_of_mem_word {format : WordFormat} {w : UInt32} {c : Char}
    (member : c ∈ (word format w).toList) : c.isAlphanum = true := by
  cases format with
  | byte =>
    rw [word] at member
    simp [Char.isAlphanum, Text.isDigit_of_mem_toString member]
  | hex32 =>
    rw [word, String.toList_append, List.mem_append] at member
    rcases member with member | member
    · have lead : "0x".toList.all Char.isAlphanum = true := by decide
      exact List.all_eq_true.mp lead c member
    · rw [Text.hexUpper, String.toList_ofList] at member
      exact isAlphanum_of_mem_hexDigits member

theorem not_mem_word {format : WordFormat} {w : UInt32} {c : Char} (other : c.isAlphanum = false) :
    c ∉ (word format w).toList := by
  intro member
  rw [isAlphanum_of_mem_word member] at other
  cases other

theorem readWord?_of_decimal {cs : Line} (filled : cs ≠ []) (plain : 'x' ∉ cs) :
    readWord? cs = Text.numeral? 10 cs := by
  unfold readWord?
  split
  · simp at plain
  · rfl
  · exact absurd rfl filled

theorem length_hexDigits (upper : Bool) (width n : Nat) :
    (Text.hexDigits upper width n).length = width := by
  induction width generalizing n with
  | zero => rfl
  | succ width ih => rw [Text.hexDigits, List.length_append, ih, List.length_singleton]

theorem readWord?_toString (n : Nat) : readWord? (toString n).toList = some n := by
  rw [readWord?_of_decimal (by simp) (Text.not_mem_toString (by decide) n), Text.numeral?_toString]

theorem readWord?_word (format : WordFormat) (w : UInt32) :
    readWord? (word format w).toList = some w.toNat := by
  cases format with
  | byte => exact readWord?_toString w.toNat
  | hex32 =>
    have value := Text.numeral?_hexUpper 8 w.toNat
    have length : 8 ≤ (Text.hexUpper 8 w.toNat).toList.length := by
      rw [Text.hexUpper, String.toList_ofList, length_hexDigits]
      exact Nat.le_max_left _ _
    rw [word, String.toList_append]
    cases digits : (Text.hexUpper 8 w.toNat).toList with
    | nil => simp [digits] at length
    | cons digit rest =>
      rw [digits] at value
      exact value

theorem pieces_commas {words : List Line} (filled : words ≠ [])
    (free : ∀ word ∈ words, ',' ∉ word ∧ ' ' ∉ word) :
    (Text.pieces ',' ([',', ' '].intercalate words)).map (·.dropWhile (· = ' ')) = words := by
  have bare : ∀ word : Line, ' ' ∉ word → word.dropWhile (· = ' ') = word := by
    intro word none
    cases word with
    | nil => rfl
    | cons c rest => simp_all [eq_comm]
  induction words with
  | nil => exact absurd rfl filled
  | cons word words ih =>
    obtain ⟨noComma, noSpace⟩ := free word (by simp)
    cases words with
    | nil => simp [Text.pieces_of_free noComma, bare word noSpace]
    | cons next rest =>
      have tail := ih (by simp) fun other member => free other (by simp [member])
      have split : [',', ' '].intercalate (word :: next :: rest) =
          word ++ ',' :: ' ' :: [',', ' '].intercalate (next :: rest) := by
        rw [List.intercalate_cons_cons]
        simp
      rw [split, Text.pieces_append, Text.pieces_of_free noComma, List.map_append, List.map_singleton,
        bare word noSpace, List.singleton_append]
      congr 1
      cases found : Text.pieces ',' ([',', ' '].intercalate (next :: rest)) with
      | nil => exact absurd found (Text.pieces_ne_nil _ _)
      | cons piece more =>
        rw [found] at tail
        simpa [Text.pieces, found] using tail

def rowLine (layout : Layout) (format : WordFormat) (row : List UInt32) : Line :=
  (rowFrame layout).1.toList ++
    ([',', ' '].intercalate (row.map fun w => (word format w).toList) ++ (rowFrame layout).2.toList)

theorem readRow?_rowLine (layout : Layout) (format : WordFormat) {row : List UInt32}
    (filled : row ≠ []) : readRow? layout (rowLine layout format row) = some (row.map UInt32.toNat) := by
  have bare : ∀ cs ∈ row.map fun w => (word format w).toList, ',' ∉ cs ∧ ' ' ∉ cs := by
    intro cs member
    obtain ⟨w, _, rfl⟩ := List.mem_map.mp member
    exact ⟨not_mem_word (by decide), not_mem_word (by decide)⟩
  have separate := pieces_commas (by simpa using filled) bare
  simp only [readRow?, rowLine, isPrefixOf?_append, isSuffixOf?_append, Option.bind_eq_bind,
    Option.bind_some]
  have each := congrArg (List.mapM readWord?) separate
  rw [List.mapM_map, List.mapM_map] at each
  exact each.trans (mapM_of_forall fun w _ => readWord?_word format w)

end PixelTables.Listing
