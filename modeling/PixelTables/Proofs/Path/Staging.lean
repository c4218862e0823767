import PixelTables.Proofs.Path.Moves
import Mathlib.Data.List.Induction

namespace PixelTables.Path

theorem isAbsolute_iff_pieces (p : Path) :
    p.isAbsolute = true ↔ ∃ piece more, p.pieces = "" :: piece :: more := by
  simp only [isAbsolute, decide_eq_true_eq]
  simp only [anchor]
  split <;> simp_all

theorem pieces_ne_nil (p : Path) : p.pieces ≠ [] := by
  simp [pieces, Text.pieces_ne_nil]

/-- Joining puts the pieces of the right side behind those of the left, where a final slash leaves
    no empty piece between them. -/
theorem pieces_join {base p : Path} (relative : p.isAbsolute = false) (filled : base.text ≠ "") :
    ∃ front, front ≠ [] ∧ (base.pieces = front ∨ base.pieces = front ++ [""]) ∧
      (base.join p).pieces = front ++ p.pieces := by
  obtain ⟨base⟩ := base
  obtain ⟨text⟩ := p
  simp only at filled
  simp only [join, relative, filled, Bool.false_eq_true, ↓reduceIte, decide_false, Bool.false_or]
  by_cases slash : base.toList.getLast? = some '/'
  · obtain ⟨before, split⟩ := List.getLast?_eq_some_iff.mp slash
    have cut : base = String.ofList before ++ "/" ++ "" := by simp [← String.toList_inj, split]
    have glued : base ++ text = String.ofList before ++ "/" ++ text := by
      simp [← String.toList_inj, split]
    refine ⟨(Path.mk (String.ofList before)).pieces, pieces_ne_nil _, .inr ?_, ?_⟩
    · rw [cut, pieces_append, pieces_empty]
    · simp only [slash, decide_true, ↓reduceIte]
      rw [glued, pieces_append]
  · refine ⟨(Path.mk base).pieces, pieces_ne_nil _, .inl rfl, ?_⟩
    simp only [slash, decide_false, Bool.false_eq_true, ↓reduceIte]
    rw [pieces_append]

theorem pieces_join_filter {base p : Path} (relative : p.isAbsolute = false) {keep : String → Bool}
    (filled : keep "" = false) :
    (base.join p).pieces.filter keep = base.pieces.filter keep ++ p.pieces.filter keep := by
  by_cases empty : base.text = ""
  · obtain ⟨base⟩ := base
    obtain ⟨text⟩ := p
    simp only at empty
    simp [join, relative, empty, pieces_empty, filled]
  · obtain ⟨front, _, before, joined⟩ := pieces_join relative empty
    rw [joined, List.filter_append]
    rcases before with same | slash
    · rw [same]
    · simp [slash, filled]

theorem moves_join {base p : Path} (relative : p.isAbsolute = false) :
    (base.join p).moves = base.moves ++ p.moves :=
  pieces_join_filter relative (by decide)

theorem isAbsolute_join {base p : Path} (relative : p.isAbsolute = false) :
    (base.join p).isAbsolute = base.isAbsolute := by
  have right := (isAbsolute_iff p).not.mp (by simp [relative])
  rw [Bool.eq_iff_iff, isAbsolute_iff, isAbsolute_iff]
  simp only [join, relative, Bool.false_eq_true, ↓reduceIte]
  by_cases empty : base.text = ""
  · simp [empty, right]
  · have filled : base.text.toList ≠ [] := by simpa using empty
    obtain ⟨c, rest, text⟩ := List.exists_cons_of_ne_nil filled
    split <;> simp [text]

theorem join_name_relative {name : String} (free : '/' ∉ name.toList) :
    (Path.mk name).isAbsolute = false := by
  rw [Bool.eq_false_iff, ne_eq, isAbsolute_iff]
  intro slash
  exact free (List.mem_of_mem_head? slash)

theorem anchor_root_iff (p : Path) : p.anchor = .root ↔ p.isAbsolute = true := by
  simp [isAbsolute]

theorem anchor_dot_iff (p : Path) : p.anchor = .dot ↔ p.pieces.head? = some "." := by
  simp only [anchor]
  split
  · rename_i pieces
    simp [pieces]
  · rename_i pieces
    simp [pieces]
  · rename_i other
    simp only [reduceCtorEq, false_iff]
    intro head
    obtain ⟨rest, pieces⟩ := List.head?_eq_some_iff.mp head
    exact other rest pieces

theorem anchor_eq_of_iff {a b : Path} (root : a.anchor = .root ↔ b.anchor = .root)
    (dot : a.anchor = .dot ↔ b.anchor = .dot) : a.anchor = b.anchor := by
  cases first : a.anchor <;> cases second : b.anchor <;> simp_all

theorem dropIdleEnd_concat (body : List String) (last : String) :
    dropIdleEnd (body ++ [last]) = if isIdle last then dropIdleEnd body else body ++ [last] := by
  by_cases idle : isIdle last <;> simp [dropIdleEnd, idle]

theorem dropIdleEnd_filter (body : List String) :
    ((dropIdleEnd body).filter fun piece => !isIdle piece) =
      body.filter fun piece => !isIdle piece := by
  induction body using List.reverseRecOn with
  | nil => rfl
  | append_singleton body last ih =>
    rw [dropIdleEnd_concat]
    by_cases idle : isIdle last
    · simp [idle, ih]
    · simp [idle]

theorem dropIdleEnd_isPrefix (body : List String) : dropIdleEnd body <+: body := by
  induction body using List.reverseRecOn with
  | nil => exact List.prefix_rfl
  | append_singleton body last ih =>
    rw [dropIdleEnd_concat]
    split
    · exact ih.trans (List.prefix_append _ _)
    · exact List.prefix_rfl

theorem dropIdleEnd_cases (body : List String) :
    dropIdleEnd body = [] ∨
      ∃ before last, dropIdleEnd body = before ++ [last] ∧ isIdle last = false := by
  induction body using List.reverseRecOn with
  | nil => exact .inl rfl
  | append_singleton body last ih =>
    rw [dropIdleEnd_concat]
    split
    · exact ih
    · rename_i moving
      exact .inr ⟨body, last, rfl, by simpa using moving⟩

theorem moves_intercalate {rest : List String} (free : ∀ piece ∈ rest, '/' ∉ piece.toList) :
    (Path.mk ("/".intercalate rest)).moves = rest.filter fun piece => !isIdle piece := by
  by_cases empty : rest = []
  · subst empty
    exact moves_empty
  · rw [moves, pieces_intercalate empty free]

theorem moves_render (start : Anchor) {rest : List String}
    (free : ∀ piece ∈ rest, '/' ∉ piece.toList) :
    (Path.mk (start.render rest)).moves = rest.filter fun piece => !isIdle piece := by
  have tail := moves_intercalate free
  have here : (Path.mk ".").moves = [] := by decide +kernel
  cases start with
  | root =>
    have text : Anchor.root.render rest = "" ++ "/" ++ "/".intercalate rest := by
      simp [Anchor.render]
    rw [text, moves_append, moves_empty, tail, List.nil_append]
  | dot =>
    cases rest with
    | nil => exact here
    | cons piece rest =>
      have text : Anchor.dot.render (piece :: rest) = "." ++ "/" ++ "/".intercalate (piece :: rest) := by
        simp [Anchor.render]
      rw [text, moves_append, here, tail, List.nil_append]
  | none => exact tail

theorem anchor_render {p : Path} {rest : List String} (kept : rest <+: p.body) :
    (Path.mk (p.anchor.render rest)).anchor = p.anchor := by
  have free : ∀ piece ∈ rest, '/' ∉ piece.toList := by
    intro piece member
    apply free_of_mem_pieces (p := p)
    have inBody := kept.subset member
    simp only [body] at inBody
    split at inBody
    · exact inBody
    · exact List.mem_of_mem_tail inBody
  cases start : p.anchor with
  | root =>
    rw [anchor_root_iff, isAbsolute_iff]
    simp [Anchor.render]
  | dot =>
    cases rest with
    | nil => decide +kernel
    | cons piece rest =>
      have text : Anchor.dot.render (piece :: rest) = "." ++ "/" ++ "/".intercalate (piece :: rest) := by
        simp [Anchor.render]
      rw [anchor_dot_iff, text, pieces_append, pieces_of_free (by simp)]
      rfl
  | none =>
    by_cases empty : rest = []
    · rw [empty]
      decide +kernel
    · have pieces : (Path.mk (Anchor.none.render rest)).pieces = rest := pieces_intercalate empty free
      obtain ⟨after, whole⟩ : rest <+: p.pieces := by simpa only [body, start] using kept
      have same : (Path.mk (Anchor.none.render rest)).anchor = p.anchor := by
        apply anchor_eq_of_iff
        · rw [anchor_root_iff, isAbsolute_iff_pieces, pieces]
          constructor
          · rintro ⟨piece, more, absolute⟩
            rw [anchor_root_iff, isAbsolute_iff_pieces]
            exact ⟨piece, more ++ after, by simp [← whole, absolute]⟩
          · simp [start]
        · rw [anchor_dot_iff, anchor_dot_iff, pieces, ← whole, List.head?_append_of_ne_nil _ empty]
      exact same.trans start

theorem parent_of_moves {p : Path} {before : List String} {name : String}
    (moves : p.moves = before ++ [name]) :
    ∃ up, p.parent = some up ∧ up.anchor = p.anchor ∧ up.moves = before := by
  have whole := body_filter p
  rw [← dropIdleEnd_filter, moves] at whole
  rcases dropIdleEnd_cases p.body with none | ⟨first, last, core, moving⟩
  · simp [none] at whole
  · rw [core] at whole
    simp only [List.filter_append, List.filter_cons, moving, Bool.not_false, ↓reduceIte,
      List.filter_nil] at whole
    have kept : dropIdleEnd first <+: p.body := by
      have inside : first ++ [last] <+: p.body := core ▸ dropIdleEnd_isPrefix p.body
      exact (dropIdleEnd_isPrefix first).trans ((List.prefix_append _ _).trans inside)
    refine ⟨⟨p.anchor.render (dropIdleEnd first)⟩, ?_, anchor_render kept, ?_⟩
    · simp only [parent, core]
      split
      · simp_all
      · simp_all
    · rw [moves_render, dropIdleEnd_filter]
      · exact (List.append_inj' whole rfl).1
      · intro piece member
        have inBody := kept.subset member
        simp only [body] at inBody
        split at inBody
        · exact free_of_mem_pieces inBody
        · exact free_of_mem_pieces (List.mem_of_mem_tail inBody)

end PixelTables.Path
