import PixelTables.Proofs.Text.Pieces
import PixelTables.Publishing

namespace PixelTables.Path

theorem free_of_mem_pieces {p : Path} {piece : String} (member : piece ∈ p.pieces) :
    '/' ∉ piece.toList := by
  simp only [pieces, List.mem_map] at member
  obtain ⟨cs, member, rfl⟩ := member
  simpa using Text.free_of_mem_pieces member

theorem pieces_append (a b : String) :
    (Path.mk (a ++ "/" ++ b)).pieces = (Path.mk a).pieces ++ (Path.mk b).pieces := by
  simp [pieces, Text.pieces_append]

theorem pieces_of_free {text : String} (free : '/' ∉ text.toList) :
    (Path.mk text).pieces = [text] := by
  simp [pieces, Text.pieces_of_free free]

theorem pieces_empty : (Path.mk "").pieces = [""] := pieces_of_free (by simp)

theorem pieces_intercalate {rest : List String} (some : rest ≠ [])
    (free : ∀ piece ∈ rest, '/' ∉ piece.toList) : (Path.mk ("/".intercalate rest)).pieces = rest := by
  have lists : ("/".intercalate rest).toList = ['/'].intercalate (rest.map String.toList) := by
    simp [String.toList_intercalate]
  simp only [pieces, lists]
  rw [Text.pieces_intercalate (by simpa using some) (by simpa using free)]
  simp [Function.comp_def]

theorem isAbsolute_iff (p : Path) : p.isAbsolute = true ↔ p.text.toList.head? = some '/' := by
  simp only [isAbsolute, decide_eq_true_eq]
  simp only [anchor, pieces]
  cases text : p.text.toList with
  | nil => simp [Text.pieces]
  | cons c rest =>
    by_cases slash : c = '/'
    · cases found : Text.pieces '/' rest with
      | nil => exact absurd found (Text.pieces_ne_nil _ _)
      | cons piece more => simp [Text.pieces, slash, found]
    · cases found : Text.pieces '/' rest with
      | nil => exact absurd found (Text.pieces_ne_nil _ _)
      | cons piece more =>
        have filled : String.ofList (c :: piece) ≠ "" := by simp [← String.toList_inj]
        simp only [Text.pieces, slash, ↓reduceIte, found, List.map_cons, List.head?_cons,
          Option.some.injEq, iff_false]
        split <;> simp_all

def moves (p : Path) : List String := p.pieces.filter fun piece => !isIdle piece

theorem moves_append (a b : String) :
    (Path.mk (a ++ "/" ++ b)).moves = (Path.mk a).moves ++ (Path.mk b).moves := by
  simp [moves, pieces_append]

theorem moves_empty : (Path.mk "").moves = [] := by simp [moves, pieces_empty, isIdle]

theorem body_filter (p : Path) : (p.body.filter fun piece => !isIdle piece) = p.moves := by
  simp only [body, moves, anchor]
  split <;> rename_i at_ <;> split at at_ <;> simp_all [isIdle]

theorem components_eq (p : Path) :
    p.components = p.anchor.components ++ p.moves.map Component.ofPiece := by
  rw [components, body_filter]

theorem moves_of_fileName {p : Path} {name : String} (named : p.fileName = some name) :
    name ≠ ".." ∧ ∃ before, p.moves = before ++ [name] := by
  rw [fileName, components_eq] at named
  rcases List.eq_nil_or_concat' p.moves with none | ⟨before, last, moves⟩
  · rw [none] at named
    cases start : p.anchor <;> simp [start, Anchor.components] at named
  · rw [moves] at named
    by_cases up : last = ".." <;> simp [Component.ofPiece, up] at named
    subst named
    exact ⟨up, before, moves⟩

theorem fileName_of_moves {p : Path} {before : List String} {name : String}
    (moves : p.moves = before ++ [name]) (up : name ≠ "..") : p.fileName = some name := by
  rw [fileName, components_eq, moves, List.map_append, List.map_singleton, ← List.append_assoc,
    List.getLast?_concat, Component.ofPiece, if_neg up]

theorem text_join (base p : Path) : ∃ front, (base.join p).text = front ++ p.text := by
  rw [join]
  split
  · exact ⟨"", String.empty_append.symm⟩
  · split
    · exact ⟨base.text, rfl⟩
    · exact ⟨base.text ++ "/", rfl⟩

theorem fileName_of_getLast? {p : Path} {c : Char} (last : p.text.toList.getLast? = some c)
    (slash : c ≠ '/') (dot : c ≠ '.') :
    ∃ name, p.fileName = some name ∧ name.toList.getLast? = some c := by
  obtain ⟨cs, text⟩ := List.getLast?_eq_some_iff.mp last
  obtain ⟨front, piece, split⟩ :=
    Text.pieces_append_free '/' cs [c] (by simpa using slash.symm)
  have ending : (String.ofList (piece ++ [c])).toList.getLast? = some c := by simp
  have pieces : p.pieces = front.map String.ofList ++ [String.ofList (piece ++ [c])] := by
    rw [Path.pieces, text, split, List.map_append, List.map_singleton]
  generalize String.ofList (piece ++ [c]) = name at ending pieces
  have other : ∀ text : String, text.toList.getLast? ≠ some c → name ≠ text := by
    rintro text differs rfl
    exact differs ending
  have active : isIdle name = false := by
    simp only [isIdle, Bool.or_eq_false_iff, decide_eq_false_iff_not]
    exact ⟨other "" (by simp), other "." (by simpa using dot.symm)⟩
  have moves : p.moves = (front.map String.ofList).filter (fun piece => !isIdle piece) ++ [name] := by
    rw [Path.moves, pieces, List.filter_append, List.filter_singleton, active]
    rfl
  exact ⟨name, fileName_of_moves moves (other ".." (by simpa using dot.symm)), ending⟩

theorem isIdle_of_mem_moves {p : Path} {piece : String} (member : piece ∈ p.moves) :
    isIdle piece = false := by
  simpa using (List.mem_filter.mp member).2

theorem free_of_mem_moves {p : Path} {piece : String} (member : piece ∈ p.moves) :
    '/' ∉ piece.toList := free_of_mem_pieces (List.mem_filter.mp member).1

end PixelTables.Path
