import PixelTables.Proofs.Path.Staging

namespace PixelTables.Path

theorem Component.ofPiece_injective : Function.Injective Component.ofPiece := by
  intro a b same
  simp only [Component.ofPiece] at same
  split at same <;> split at same <;> simp_all

theorem Component.ofPiece_ne_root (piece : String) : ofPiece piece ≠ .root := by
  unfold ofPiece
  split <;> simp

theorem Component.ofPiece_ne_current (piece : String) : ofPiece piece ≠ .current := by
  unfold ofPiece
  split <;> simp

theorem root_mem_components (p : Path) : .root ∈ p.components ↔ p.anchor = .root := by
  rw [components_eq]
  cases p.anchor <;> simp [Anchor.components, Component.ofPiece_ne_root]

theorem current_mem_components (p : Path) : .current ∈ p.components ↔ p.anchor = .dot := by
  rw [components_eq]
  cases p.anchor <;> simp [Anchor.components, Component.ofPiece_ne_current]

theorem same_iff (a b : Path) : a.Same b ↔ a.anchor = b.anchor ∧ a.moves = b.moves := by
  constructor
  · intro same
    have anchors : a.anchor = b.anchor := by
      have equal : a.components = b.components := same
      apply anchor_eq_of_iff
      · rw [← root_mem_components, ← root_mem_components, equal]
      · rw [← current_mem_components, ← current_mem_components, equal]
    rw [Same, components_eq, components_eq, anchors] at same
    exact ⟨anchors, Component.ofPiece_injective.list_map (List.append_cancel_left same)⟩
  · rintro ⟨anchors, moves⟩
    rw [Same, components_eq, components_eq, anchors, moves]

theorem Same.isAbsolute_eq {a b : Path} (same : a.Same b) : a.isAbsolute = b.isAbsolute := by
  rw [isAbsolute, isAbsolute, ((same_iff a b).mp same).1]

theorem anchor_join {base p : Path} (relative : p.isAbsolute = false) (filled : base.text ≠ "") :
    (base.join p).anchor = base.anchor := by
  apply anchor_eq_of_iff
  · rw [anchor_root_iff, anchor_root_iff, isAbsolute_join relative]
  · obtain ⟨front, starts, before, joined⟩ := pieces_join relative filled
    rw [anchor_dot_iff, anchor_dot_iff, joined, List.head?_append_of_ne_nil _ starts]
    rcases before with same | slash
    · rw [same]
    · rw [slash, List.head?_append_of_ne_nil _ starts]

theorem join_absolute {base p : Path} (absolute : p.isAbsolute = true) : base.join p = p := by
  rw [join, if_pos absolute]

theorem join_empty {base p : Path} (empty : base.text = "") : base.join p = p := by
  obtain ⟨text⟩ := p
  simp [join, empty]

/-- Paths that come to one place below `base` though they may differ: by a dot in front, or because
    one of them spells out from the root what the other gives below the base. -/
inductive Alias (base p q : Path) : Prop
  | dotted (first : p.isAbsolute = false) (second : q.isAbsolute = false) (filled : base.text ≠ "")
      (moves : p.moves = q.moves)
  | left (absolute : p.isAbsolute = true) (relative : q.isAbsolute = false)
      (rooted : base.isAbsolute = true) (moves : p.moves = base.moves ++ q.moves)
  | right (relative : p.isAbsolute = false) (absolute : q.isAbsolute = true)
      (rooted : base.isAbsolute = true) (moves : q.moves = base.moves ++ p.moves)

theorem Alias.symm {base p q : Path} (same : Alias base p q) : Alias base q p := by
  cases same with
  | dotted first second filled moves => exact .dotted second first filled moves.symm
  | left absolute relative rooted moves => exact .right relative absolute rooted moves
  | right relative absolute rooted moves => exact .left absolute relative rooted moves

theorem Alias.comm {base p q : Path} : Alias base p q ↔ Alias base q p := ⟨.symm, .symm⟩

theorem Same.comm {p q : Path} : p.Same q ↔ q.Same p := ⟨.symm, .symm⟩

theorem Alias.same {base p q : Path} (met : Alias base p q) (start : p.anchor = q.anchor) :
    p.Same q := by
  have kind : p.isAbsolute = q.isAbsolute := by rw [isAbsolute, isAbsolute, start]
  cases met with
  | dotted _ _ _ moves => exact (same_iff p q).mpr ⟨start, moves⟩
  | left absolute relative | right relative absolute =>
    rw [absolute, relative] at kind
    cases kind

theorem same_join_absolute {base p q : Path} (absolute : p.isAbsolute = true)
    (relative : q.isAbsolute = false) :
    p.Same (base.join q) ↔ base.isAbsolute = true ∧ p.moves = base.moves ++ q.moves := by
  rw [same_iff, moves_join relative, ← isAbsolute_join relative, (anchor_root_iff p).mpr absolute,
    ← anchor_root_iff, eq_comm]

theorem same_join_relative {base p q : Path} (first : p.isAbsolute = false)
    (second : q.isAbsolute = false) (filled : base.text ≠ "") :
    (base.join p).Same (base.join q) ↔ p.moves = q.moves := by
  rw [same_iff, anchor_join first filled, anchor_join second filled, moves_join first,
    moves_join second]
  exact ⟨fun same => List.append_cancel_left same.2, fun same => ⟨rfl, by rw [same]⟩⟩

theorem same_join_of_absolute {base p q : Path} (absolute : p.isAbsolute = true)
    (relative : q.isAbsolute = false) : p.Same (base.join q) ↔ p.Same q ∨ Alias base p q := by
  rw [same_join_absolute absolute relative]
  constructor
  · rintro ⟨rooted, moves⟩
    exact .inr (.left absolute relative rooted moves)
  · rintro (same | met)
    · have kind := same.isAbsolute_eq
      rw [absolute, relative] at kind
      cases kind
    · cases met with
      | left _ _ rooted moves => exact ⟨rooted, moves⟩
      | dotted first | right first =>
        rw [absolute] at first
        cases first

theorem same_join_iff (base p q : Path) :
    (base.join p).Same (base.join q) ↔ p.Same q ∨ Alias base p q := by
  cases first : p.isAbsolute <;> cases second : q.isAbsolute
  case true.false => rw [join_absolute first, same_join_of_absolute first second]
  case false.true =>
    rw [join_absolute second, Same.comm, same_join_of_absolute second first, Same.comm, Alias.comm]
  case true.true =>
    rw [join_absolute first, join_absolute second]
    refine ⟨.inl, fun same => same.resolve_right fun met => ?_⟩
    cases met <;> simp_all
  case false.false =>
    by_cases empty : base.text = ""
    · rw [join_empty empty, join_empty empty]
      refine ⟨.inl, fun same => same.resolve_right fun met => ?_⟩
      cases met <;> simp_all
    · rw [same_join_relative first second empty]
      constructor
      · exact fun moves => .inr (.dotted first second empty moves)
      · rintro (same | met)
        · exact ((same_iff p q).mp same).2
        · cases met with
          | dotted _ _ _ moves => exact moves
          | left absolute => simp [first] at absolute
          | right _ absolute => simp [second] at absolute

theorem eq_empty_of_pieces {p : Path} (bare : p.pieces = [""]) : p = ⟨""⟩ := by
  have chars : Text.pieces '/' p.text.toList = [[]] := by
    have lists := congrArg (List.map String.toList) bare
    simpa [pieces] using lists
  obtain ⟨text⟩ := p
  rw [Path.mk.injEq, ← String.toList_inj]
  exact Text.eq_nil_of_pieces chars

theorem same_empty_iff (p : Path) : p.Same ⟨""⟩ ↔ p = ⟨""⟩ := by
  constructor
  · intro same
    have start : (Path.mk "").anchor = .none := by simp [anchor, pieces_empty]
    obtain ⟨anchors, still⟩ := (same_iff _ _).mp same
    rw [start] at anchors
    rw [moves_empty, moves, List.filter_eq_nil_iff] at still
    obtain ⟨first, rest, split⟩ := List.exists_cons_of_ne_nil p.pieces_ne_nil
    have idle : first = "" ∨ first = "." := by
      have here := still first (by simp [split])
      simpa only [isIdle, Bool.not_eq_true, Bool.not_eq_false', Bool.or_eq_true,
        decide_eq_true_eq] using here
    rcases idle with rfl | rfl
    · cases rest with
      | nil => exact eq_empty_of_pieces split
      | cons piece more =>
        have absolute := (isAbsolute_iff_pieces p).mpr ⟨piece, more, split⟩
        simp [isAbsolute, anchors] at absolute
    · have dot := (anchor_dot_iff p).mpr (by simp [split])
      simp [anchors] at dot
  · rintro rfl
    exact .refl _

theorem join_eq_empty_iff (base p : Path) : base.join p = ⟨""⟩ ↔ base = ⟨""⟩ ∧ p = ⟨""⟩ := by
  constructor
  · intro empty
    have relative : p.isAbsolute = false := by
      by_contra absolute
      rw [Bool.not_eq_false] at absolute
      rw [join_absolute absolute] at empty
      rw [empty] at absolute
      exact absurd absolute (by decide +kernel)
    rw [join, relative, if_neg Bool.false_ne_true] at empty
    split at empty
    · obtain ⟨first, second⟩ := String.append_eq_empty_iff.mp (Path.mk.inj empty)
      exact ⟨congrArg Path.mk first, congrArg Path.mk second⟩
    · have text := congrArg String.length (Path.mk.inj empty)
      simp at text
  · rintro ⟨rfl, rfl⟩
    exact join_empty rfl

end PixelTables.Path
