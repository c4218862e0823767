import PixelTables.Profile.Validation
import PixelTables.Proofs.Results

namespace PixelTables

theorem require_eq_ok {good : Bool} {fault : Fault} {u : Unit} :
    require good fault = .ok u ↔ good = true := by
  cases good <;> simp [require]

theorem forM_eq_ok {α : Type} {check : α → Except Failure Unit} {as : List α} {u : Unit} :
    as.forM check = .ok u ↔ ∀ a ∈ as, check a = .ok () := by
  induction as with
  | nil => simp [Pure.pure, Except.pure]
  | cons a rest ih =>
    rw [List.forM_eq_forM] at ih ⊢
    simp only [List.forM_cons, bind_eq_ok, ih, List.forall_mem_cons]
    exact ⟨fun ⟨_, first, others⟩ => ⟨first, others⟩, fun ⟨first, others⟩ => ⟨(), first, others⟩⟩

/-- Elements that are each checked by themselves and against the keys before them pass exactly if all
    are good and all keys are apart. -/
theorem checked_in_turn {α κ : Type} (passes : List κ → List α → Prop) (good : α → Prop)
    (apart : κ → κ → Prop) (key : α → κ) (done : ∀ before, passes before [])
    (step : ∀ before a rest, passes before (a :: rest) ↔
      good a ∧ (∀ k ∈ before, apart k (key a)) ∧ passes (key a :: before) rest)
    (before : List κ) (as : List α) :
    passes before as ↔ (∀ a ∈ as, good a) ∧ (as.map key).Pairwise apart ∧
      ∀ a ∈ as, ∀ k ∈ before, apart k (key a) := by
  -- every later element is checked against all keys before it, so they are generalized
  induction as generalizing before with
  | nil => simp [done]
  | cons a rest ih =>
    simp only [step, ih, List.map_cons, List.pairwise_cons, List.forall_mem_cons, List.forall_mem_map,
      forall_and]
    constructor
    · rintro ⟨first, fresh, goods, distinct, behind, others⟩
      exact ⟨⟨first, goods⟩, ⟨behind, distinct⟩, fresh, others⟩
    · rintro ⟨⟨first, goods⟩, ⟨behind, distinct⟩, fresh, others⟩
      exact ⟨first, fresh, goods, distinct, behind, others⟩

def NamesFault {α : Type} (x : Except Failure α) : Prop :=
  ∀ failure, x = .error failure → ∃ fault, failure = .fault fault

namespace NamesFault

variable {α β : Type}

theorem ok (a : α) : NamesFault (.ok a : Except Failure α) := by
  intro failure same
  cases same

theorem fault (fault : Fault) : NamesFault (.error (.fault fault) : Except Failure α) :=
  fun _ same => ⟨fault, (Except.error.inj same).symm⟩

theorem bind {x : Except Failure α} {f : α → Except Failure β} (first : NamesFault x)
    (next : ∀ a, NamesFault (f a)) : NamesFault (x >>= f) := by
  intro failure same
  cases x with
  | error why => exact first failure (by rw [Except.error.inj same])
  | ok a => exact next a failure same

theorem rejected_iff {x : Except Failure Unit} (names : NamesFault x) :
    (∃ fault, x = .error (.config none (.fault fault))) ↔ ¬ x = .ok () := by
  cases x with
  | ok u => simp
  | error failure =>
    obtain ⟨fault, rfl⟩ := names failure rfl
    exact ⟨fun _ => by simp, fun _ => ⟨fault, rfl⟩⟩

theorem require (good : Bool) (broken : Fault) : NamesFault (require good broken) := by
  cases good
  · exact .fault broken
  · exact .ok ()

theorem checkIdentifier (what name : String) : NamesFault (checkIdentifier what name) := by
  unfold PixelTables.checkIdentifier
  split
  · exact .ok ()
  · exact .fault _

theorem forM {check : α → Except Failure Unit} (each : ∀ a, NamesFault (check a)) (as : List α) :
    NamesFault (as.forM check) := by
  induction as with
  | nil => exact .ok ()
  | cons a rest ih => exact (each a).bind fun _ => ih

theorem shape (s : Shape) (table stem : String) (indices : List String) :
    NamesFault (s.check table stem indices) := by
  refine (checkIdentifier _ _).bind fun _ => (checkIdentifier _ _).bind fun _ => ?_
  split
  · exact .fault _
  · split
    · exact .fault _
    · exact .ok ()

theorem glyphProfile (p : GlyphProfile) : NamesFault p.check :=
  (require _ _).bind fun _ => (require _ _).bind fun _ => (require _ _).bind fun _ =>
    (require _ _).bind fun _ => (require _ _).bind fun _ => (require _ _).bind fun _ => shape _ _ _ _

theorem entries (p : IconProfile) (before : List String) (entries : List IconEntry) :
    NamesFault (p.checkEntries before entries) := by
  induction entries generalizing before with
  | nil => exact .ok ()
  | cons e rest ih =>
    exact (checkIdentifier _ _).bind fun _ => (require _ _).bind fun _ => (require _ _).bind fun _ =>
      ih _

theorem iconProfile (p : IconProfile) : NamesFault p.check :=
  (require _ _).bind fun _ => (require _ _).bind fun _ => (entries _ _ _).bind fun _ => shape _ _ _ _

theorem names (before : List String) (names : List (String × String)) :
    NamesFault (Config.checkNames before names) := by
  induction names generalizing before with
  | nil => exact .ok ()
  | cons name rest ih =>
    exact (require _ _).bind fun _ => (checkIdentifier _ _).bind fun _ =>
      (checkIdentifier _ _).bind fun _ => ih _

theorem outputs (before outputs : List Path) : NamesFault (Config.checkOutputs before outputs) := by
  induction outputs generalizing before with
  | nil => exact .ok ()
  | cons p rest ih => exact (require _ _).bind fun _ => ih _

theorem config (c : Config) : NamesFault c.check :=
  (names _ _).bind fun _ => (outputs _ _).bind fun _ => (forM glyphProfile _).bind fun _ =>
    forM iconProfile _

end NamesFault

theorem checkIdentifier_eq_ok {what name : String} {u : Unit} :
    checkIdentifier what name = .ok u ↔ isIdentifier name = true := by
  cases identifier : isIdentifier name <;> simp [checkIdentifier, identifier]

namespace Shape

theorem clash?_eq_none {s : Shape} :
    s.clash? = none ↔ (reservedNames ++ [s.countName, s.sizeName]).Nodup := by
  have reserved : reservedNames.Nodup := by decide
  by_cases same : s.countName = s.sizeName
  · simp [clash?, List.nodup_append, same]
  · simp only [clash?, same, ↓reduceIte, List.find?_eq_none, decide_eq_true_eq, List.nodup_append,
      reserved, true_and, List.nodup_cons, List.mem_singleton, not_false_eq_true, List.not_mem_nil,
      List.nodup_nil, and_true]
    exact ⟨fun fresh a first b second equal => fresh b second (equal ▸ first),
      fun apart b second first => apart b first b second rfl⟩

theorem check_eq_ok {s : Shape} {table stem : String} {indices : List String} {u : Unit} :
    s.check table stem indices = .ok u ↔ isIdentifier s.countName = true ∧
      isIdentifier s.sizeName = true ∧ (reservedNames ++ [s.countName, s.sizeName]).Nodup ∧
      ∀ index ∈ indices, index ∉ s.constants stem := by
  simp only [check, bind_eq_ok, checkIdentifier_eq_ok, exists_and_left, exists_const,
    ← clash?_eq_none]
  cases clash : s.clash? with
  | some name => simp
  | none =>
    cases found : indices.find? (· ∈ s.constants stem) with
    | some index =>
      have member := List.mem_of_find?_eq_some found
      have taken := List.find?_some found
      simp only [decide_eq_true_eq] at taken
      simp only [reduceCtorEq, and_false, true_and, false_iff]
      exact fun ⟨_, _, fresh⟩ => fresh index member taken
    | none =>
      have fresh : ∀ index ∈ indices, index ∉ s.constants stem := by simpa using found
      exact ⟨fun ⟨count, size, _⟩ => ⟨count, size, rfl, fresh⟩,
        fun ⟨count, size, _⟩ => ⟨count, size, rfl⟩⟩

end Shape

theorem GlyphProfile.check_eq_ok {p : GlyphProfile} {u : Unit} :
    p.check = .ok u ↔ (p.cellWidth ≠ 0 ∧ p.cellHeight ≠ 0) ∧
      (p.cellWidth ≤ maxCellSide ∧ p.cellHeight ≤ maxCellSide) ∧ p.padding ≤ maxPadding ∧
      p.count ≠ 0 ∧ p.chars.length = p.count.toNat ∧ isUsableSize p.fontSize = true ∧
      p.shape.check p.name p.stem (p.descriptors.map (·.id)) = .ok u := by
  simp only [check, bind_eq_ok, require_eq_ok, Bool.and_eq_true, decide_eq_true_eq, exists_and_left,
    exists_const, and_assoc]

namespace IconProfile

theorem check_eq_ok {p : IconProfile} {u : Unit} :
    p.check = .ok u ↔ (p.cellSize ≠ 0 ∧ p.cellSize ≤ maxCellSide) ∧ p.entries.isEmpty = false ∧
      p.checkEntries [] p.entries = .ok u ∧
      p.shape.check p.name p.stem (p.entries.map p.index) = .ok u := by
  simp only [check, bind_eq_ok, require_eq_ok, Bool.and_eq_true, Bool.not_eq_true', decide_eq_true_eq,
    exists_and_left, exists_const, and_assoc]
  exact ⟨fun ⟨side, small, filled, _, rest⟩ => ⟨side, small, filled, rest⟩,
    fun ⟨side, small, filled, rest⟩ => ⟨side, small, filled, u, rest⟩⟩

theorem checkEntries_eq_ok {p : IconProfile} {entries : List IconEntry} {u : Unit} :
    p.checkEntries [] entries = .ok u ↔
      (∀ e ∈ entries, isIdentifier e.id = true ∧ p.contentSizeOf e ≠ 0 ∧
        p.contentSizeOf e ≤ p.cellSize) ∧ (entries.map (·.id)).Nodup := by
  have turns := checked_in_turn (fun before entries => p.checkEntries before entries = .ok u)
    (fun e => isIdentifier e.id = true ∧ p.contentSizeOf e ≠ 0 ∧ p.contentSizeOf e ≤ p.cellSize)
    (· ≠ ·) (·.id) (fun _ => rfl) (by
      intro before e rest
      simp only [checkEntries, bind_eq_ok, checkIdentifier_eq_ok, require_eq_ok, decide_eq_true_eq,
        Bool.and_eq_true, exists_and_left, exists_const]
      exact ⟨fun ⟨identifier, fresh, size, later⟩ =>
          ⟨⟨identifier, size⟩, fun _ known same => fresh (same ▸ known), later⟩,
        fun ⟨⟨identifier, size⟩, fresh, later⟩ =>
          ⟨identifier, fun known => fresh _ known rfl, size, later⟩⟩) [] entries
  rw [turns]
  simp [List.Nodup]

theorem index_inj {p : IconProfile} {a b : IconEntry} (same : p.index a = p.index b) : a.id = b.id :=
  (String.append_right_inj _).mp same

theorem indices_nodup {p : IconProfile} (checked : p.check = .ok ()) :
    (p.entries.map p.index).Nodup := by
  simp only [check, bind_eq_ok, require_eq_ok] at checked
  obtain ⟨_, _, _, _, _, entries, _⟩ := checked
  have distinct := (checkEntries_eq_ok.mp entries).2
  simp only [List.Nodup, List.pairwise_map] at distinct ⊢
  exact distinct.imp fun other same => other (index_inj same)

end IconProfile

namespace Config

theorem check_eq_ok {c : Config} {u : Unit} :
    c.check = .ok u ↔ checkNames [] c.names = .ok u ∧ checkOutputs [] c.outputs = .ok u ∧
      (∀ p ∈ c.glyphs, p.check = .ok ()) ∧ ∀ p ∈ c.icons, p.check = .ok () := by
  simp only [check, bind_eq_ok, forM_eq_ok, exists_and_left, exists_const]
  exact ⟨fun ⟨_, names, _, outputs, rest⟩ => ⟨names, outputs, rest⟩,
    fun ⟨names, outputs, rest⟩ => ⟨u, names, u, outputs, rest⟩⟩

theorem icons_checked {c : Config} (valid : c.check = .ok ()) : ∀ p ∈ c.icons, p.check = .ok () :=
  (check_eq_ok.mp valid).2.2.2

theorem checkNames_eq_ok {names : List (String × String)} {u : Unit} :
    checkNames [] names = .ok u ↔
      (∀ n ∈ names, isIdentifier n.1 = true ∧ isIdentifier n.2 = true) ∧
        (names.map Prod.fst).Nodup := by
  have turns := checked_in_turn (fun before names => checkNames before names = .ok u)
    (fun n => isIdentifier n.1 = true ∧ isIdentifier n.2 = true) (· ≠ ·) Prod.fst (fun _ => rfl) (by
      intro before n rest
      simp only [checkNames, bind_eq_ok, checkIdentifier_eq_ok, require_eq_ok, decide_eq_true_eq,
        exists_and_left, exists_const]
      exact ⟨fun ⟨fresh, name, stem, later⟩ =>
          ⟨⟨name, stem⟩, fun _ known same => fresh (same ▸ known), later⟩,
        fun ⟨⟨name, stem⟩, fresh, later⟩ =>
          ⟨fun known => fresh _ known rfl, name, stem, later⟩⟩) [] names
  rw [turns]
  simp [List.Nodup]

theorem checkOutputs_eq_ok {outputs : List Path} {u : Unit} :
    checkOutputs [] outputs = .ok u ↔ outputs.Pairwise fun p q => ¬ p.Same q := by
  have turns := checked_in_turn (fun before outputs => checkOutputs before outputs = .ok u)
    (fun _ => True) (fun q p => ¬ q.Same p) id (fun _ => rfl) (by
      intro before p rest
      simp only [checkOutputs, bind_eq_ok, require_eq_ok, List.all_eq_true, decide_eq_true_eq,
        exists_and_left, exists_const, true_and]
      rfl) [] outputs
  rw [turns]
  simp

theorem outputs_distinct {c : Config} (valid : c.check = .ok ()) :
    c.outputs.Pairwise fun p q => ¬ p.Same q :=
  checkOutputs_eq_ok.mp (check_eq_ok.mp valid).2.1

end Config

end PixelTables
