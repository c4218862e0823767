import PixelTables.Text.Pieces
import Mathlib.Data.List.Basic

namespace PixelTables.Text

variable {separator : Char}

theorem pieces_of_free {cs : List Char} (free : separator ∉ cs) : pieces separator cs = [cs] := by
  induction cs with
  | nil => rfl
  | cons c rest ih =>
    simp only [List.mem_cons, not_or] at free
    simp only [pieces, Ne.symm free.1, ↓reduceIte, ih free.2]

theorem eq_nil_of_pieces {cs : List Char} (bare : pieces separator cs = [[]]) : cs = [] := by
  cases cs with
  | nil => rfl
  | cons c rest =>
    simp only [pieces] at bare
    split at bare
    · exact absurd (List.cons.inj bare).2 (pieces_ne_nil _ _)
    · split at bare <;> cases bare

theorem pieces_append (a b : List Char) :
    pieces separator (a ++ separator :: b) = pieces separator a ++ pieces separator b := by
  induction a with
  | nil => simp [pieces]
  | cons c a ih =>
    simp only [List.cons_append, pieces, ih]
    by_cases same : c = separator
    · simp [same]
    · simp only [same, ↓reduceIte]
      cases found : pieces separator a with
      | nil => exact absurd found (pieces_ne_nil separator a)
      | cons piece more => rfl

theorem free_of_mem_pieces {cs piece : List Char} (member : piece ∈ pieces separator cs) :
    separator ∉ piece := by
  induction cs generalizing piece with
  | nil => simp_all [pieces]
  | cons c rest ih =>
    simp only [pieces] at member
    by_cases same : c = separator
    · simp only [same, ↓reduceIte, List.mem_cons] at member
      rcases member with rfl | member
      · simp
      · exact ih member
    · simp only [same, ↓reduceIte] at member
      cases found : pieces separator rest with
      | nil => exact absurd found (pieces_ne_nil separator rest)
      | cons first more =>
        rw [found] at ih
        simp only [found, List.mem_cons] at member
        rcases member with rfl | member
        · simp only [List.mem_cons, not_or]
          exact ⟨Ne.symm same, ih (by simp)⟩
        · exact ih (by simp [member])

theorem pieces_intercalate {ps : List (List Char)} (some : ps ≠ [])
    (free : ∀ piece ∈ ps, separator ∉ piece) :
    pieces separator ([separator].intercalate ps) = ps := by
  induction ps with
  | nil => exact absurd rfl some
  | cons piece ps ih =>
    have first := pieces_of_free (free piece (by simp))
    cases ps with
    | nil => rw [List.intercalate_singleton, first]
    | cons next rest =>
      have tail := ih (by simp) fun other member => free other (by simp [member])
      rw [List.intercalate_cons_cons, List.append_assoc, List.singleton_append, pieces_append,
        first, tail]
      rfl

theorem pieces_openings {first : List Char} {ps : List (List Char)} (free : separator ∉ first)
    (each : ∀ piece ∈ ps, separator ∉ piece) :
    pieces separator (first ++ ps.flatMap (separator :: ·)) = first :: ps := by
  induction ps generalizing first with
  | nil => rw [List.flatMap_nil, List.append_nil, pieces_of_free free]
  | cons piece rest ih =>
    have tail := ih (each piece (by simp)) fun other member => each other (by simp [member])
    rw [List.flatMap_cons, List.cons_append, pieces_append, tail, pieces_of_free free,
      List.singleton_append]

theorem pieces_flatMap (lines : List (List Char)) :
    pieces separator (lines.flatMap (· ++ [separator])) = lines.flatMap (pieces separator) ++ [[]] := by
  induction lines with
  | nil => rfl
  | cons line rest ih =>
    rw [List.flatMap_cons, List.append_assoc, List.singleton_append, pieces_append, ih,
      List.flatMap_cons, List.append_assoc]

theorem flatMap_pieces {lines : List (List Char)} (free : ∀ line ∈ lines, separator ∉ line) :
    lines.flatMap (pieces separator) = lines := by
  rw [List.flatMap_def, List.map_congr_left fun line member => pieces_of_free (free line member),
    ← List.flatMap_def, List.flatMap_singleton']

theorem pieces_lines {lines : List (List Char)} (free : ∀ line ∈ lines, separator ∉ line) :
    pieces separator (lines.flatMap (· ++ [separator])) = lines ++ [[]] := by
  rw [pieces_flatMap, flatMap_pieces free]

theorem pieces_append_free (separator : Char) (cs more : List Char) (free : separator ∉ more) :
    ∃ front last, pieces separator (cs ++ more) = front ++ [last ++ more] := by
  induction cs with
  | nil => exact ⟨[], [], pieces_of_free free⟩
  | cons c rest ih =>
    obtain ⟨front, last, split⟩ := ih
    rw [List.cons_append, pieces, split]
    by_cases same : c = separator
    · exact ⟨[] :: front, last, by rw [if_pos same, List.cons_append]⟩
    · rw [if_neg same]
      cases front with
      | nil => exact ⟨[], c :: last, rfl⟩
      | cons piece front => exact ⟨(c :: piece) :: front, last, rfl⟩

end PixelTables.Text
