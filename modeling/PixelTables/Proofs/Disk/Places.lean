import PixelTables.Proofs.Path.Staging

namespace PixelTables

namespace Disk

/-- The place that the pieces of a path lead to, whatever the disk holds on the way. -/
def place (d : Disk) (p : Path) : Location := (steps p).foldl step (d.start p)

def fileAt (d : Disk) (q : Location) : Option ByteArray :=
  match d.lookup q with
  | some (.file bytes) => some bytes
  | _ => none

theorem fileAt_eq_some {d : Disk} {q : Location} {bytes : ByteArray} :
    d.fileAt q = some bytes ↔ d.lookup q = some (.file bytes) := by
  simp only [fileAt]
  split <;> simp_all

theorem fileAt_eq_none {d : Disk} {q : Location} :
    d.fileAt q = none ↔ ∀ bytes, d.lookup q ≠ some (.file bytes) := by
  simp only [fileAt]
  split <;> simp_all

theorem fileAt_congr {d e : Disk} {q : Location} (same : e.lookup q = d.lookup q) :
    e.fileAt q = d.fileAt q := by
  simp only [fileAt, same]

theorem place_congr {d e : Disk} (home : e.home = d.home) (p : Path) : e.place p = d.place p := by
  simp only [place, start, home]

theorem lookup_filter_ne (entries : List (Location × Entry)) {q gone : Location} (other : q ≠ gone) :
    (entries.filter fun e => e.1 ≠ gone).lookup q = entries.lookup q := by
  induction entries with
  | nil => rfl
  | cons e rest ih =>
    obtain ⟨here, entry⟩ := e
    by_cases dropped : here = gone
    · subst dropped
      have passed : (q == here) = false := beq_eq_false_iff_ne.mpr other
      simp only [ne_eq, not_true_eq_false, decide_false, Bool.false_eq_true, not_false_eq_true,
        List.filter_cons_of_neg, List.lookup_cons, passed, ← ih]
    · simp only [ne_eq, dropped, not_false_eq_true, decide_true, List.filter_cons_of_pos,
        List.lookup_cons, ← ih]

theorem lookup_filter_self (entries : List (Location × Entry)) (gone : Location) :
    (entries.filter fun e => e.1 ≠ gone).lookup gone = none := by
  rw [List.lookup_eq_none_iff]
  intro e member
  have other : e.1 ≠ gone := by simpa using (List.mem_filter.mp member).2
  simpa using Ne.symm other

theorem lookup_root (d : Disk) : d.lookup [] = some .directory := rfl

theorem lookup_insert {d : Disk} {here : Location} (below : here ≠ []) (q : Location)
    (entry : Entry) :
    (d.insert here entry).lookup q = if q = here then some entry else d.lookup q := by
  by_cases same : q = here
  · simp [lookup, insert, same, below]
  · have passed : (q == here) = false := beq_eq_false_iff_ne.mpr same
    simp only [lookup, insert, erase, List.lookup_cons, passed, same, ↓reduceIte]
    rw [lookup_filter_ne d.entries same]

theorem lookup_erase {d : Disk} {gone : Location} (below : gone ≠ []) (q : Location) :
    (d.erase gone).lookup q = if q = gone then none else d.lookup q := by
  by_cases same : q = gone
  · simp only [lookup, erase, same, below, ↓reduceIte]
    exact lookup_filter_self d.entries gone
  · simp only [lookup, erase, same, ↓reduceIte]
    rw [lookup_filter_ne d.entries same]

theorem walk_cons_eq_ok {d : Disk} {from_ q : Location} {piece : String} {rest : List String} :
    d.walk from_ (piece :: rest) = .ok q ↔ d.lookup from_ = some .directory ∧
      piece.utf8ByteSize ≤ maxNameSize ∧ d.walk (step from_ piece) rest = .ok q := by
  rw [walk]
  cases d.lookup from_ with
  | none => simp
  | some entry =>
    cases entry with
    | file bytes => simp
    | directory =>
      by_cases long : maxNameSize < piece.utf8ByteSize
      · simp [long, Nat.not_le.mpr long]
      · simp [long, Nat.not_lt.mp long]

theorem walk_eq_ok {d : Disk} {pieces : List String} {from_ q : Location}
    (walked : d.walk from_ pieces = .ok q) : q = pieces.foldl step from_ := by
  induction pieces generalizing from_ with
  | nil => exact (Except.ok.inj walked).symm
  | cons piece rest ih => exact ih (walk_cons_eq_ok.mp walked).2.2

theorem walk_append (d : Disk) (first second : List String) (from_ : Location) :
    d.walk from_ (first ++ second) = d.walk from_ first >>= fun q => d.walk q second := by
  induction first generalizing from_ with
  | nil => rfl
  | cons piece rest ih =>
    simp only [List.cons_append, walk]
    split
    · split
      · rfl
      · exact ih _
    · rfl
    · rfl

def Followable (p : Path) : Prop := p.text ≠ "" ∧ isPathText p.text = true

theorem locate_iff {d : Disk} {p : Path} {q : Location} :
    d.locate p = .ok q ↔ Followable p ∧ d.walk (d.start p) (steps p) = .ok q := by
  rw [locate]
  by_cases empty : p.text = ""
  · simp [Followable, empty]
  · by_cases good : isPathText p.text = true <;> simp [Followable, empty, good]

theorem locate_eq_ok {d : Disk} {p : Path} {q : Location} (located : d.locate p = .ok q) :
    q = d.place p := walk_eq_ok (locate_iff.mp located).2

theorem locate_cases (d : Disk) (p : Path) :
    d.locate p = .ok (d.place p) ∨ ∃ why, d.locate p = .error why := by
  cases located : d.locate p with
  | error why => exact .inr ⟨why, rfl⟩
  | ok q => exact .inl (by rw [locate_eq_ok located])

/-- Walks see of a disk only which places are directories. -/
theorem walk_mono {d e : Disk}
    (directories : ∀ q, d.lookup q = some .directory → e.lookup q = some .directory)
    {pieces : List String} {from_ q : Location} (walked : d.walk from_ pieces = .ok q) :
    e.walk from_ pieces = .ok q := by
  induction pieces generalizing from_ with
  | nil => exact walked
  | cons piece rest ih =>
    obtain ⟨here, short, later⟩ := walk_cons_eq_ok.mp walked
    exact walk_cons_eq_ok.mpr ⟨directories _ here, short, ih later⟩

theorem locate_mono {d e : Disk} (home : e.home = d.home)
    (directories : ∀ q, d.lookup q = some .directory → e.lookup q = some .directory)
    {p : Path} {q : Location} (located : d.locate p = .ok q) : e.locate p = .ok q := by
  obtain ⟨can, walked⟩ := locate_iff.mp located
  have origin : e.start p = d.start p := by rw [start, start, home]
  rw [locate_iff, origin]
  exact ⟨can, walk_mono directories walked⟩

/-- A walk that is stopped, other than by something missing, stays stopped where no file turns
    into a directory. -/
theorem walk_stays_refused {d e : Disk}
    (directories : ∀ q, d.lookup q = some .directory → e.lookup q = some .directory)
    (files : ∀ q bytes, d.lookup q = some (.file bytes) → e.lookup q ≠ some .directory)
    {pieces : List String} {from_ : Location} {why : Trouble}
    (refused : d.walk from_ pieces = .error why) (present : why ≠ .notFound) :
    ∃ why, e.walk from_ pieces = .error why := by
  induction pieces generalizing from_ with
  | nil => cases refused
  | cons piece rest ih =>
    simp only [walk] at refused ⊢
    cases here : d.lookup from_ with
    | none =>
      simp only [here] at refused
      exact absurd (Except.error.inj refused).symm present
    | some entry =>
      cases entry with
      | directory =>
        simp only [here] at refused
        rw [directories _ here]
        split at refused
        · rename_i long
          exact ⟨.badName, by simp [long]⟩
        · rename_i short
          simpa only [short, ↓reduceIte] using ih refused
      | file bytes =>
        have still := files _ bytes here
        split
        · contradiction
        · exact ⟨_, rfl⟩
        · exact ⟨_, rfl⟩

theorem locate_stays_refused {d e : Disk} (home : e.home = d.home)
    (directories : ∀ q, d.lookup q = some .directory → e.lookup q = some .directory)
    (files : ∀ q bytes, d.lookup q = some (.file bytes) → e.lookup q ≠ some .directory)
    {p : Path} {why : Trouble} (refused : d.locate p = .error why) (present : why ≠ .notFound) :
    ∃ why, e.locate p = .error why := by
  simp only [locate, start, home] at refused ⊢
  split at refused
  · exact absurd (Except.error.inj refused).symm present
  · rename_i filled
    simp only [filled, ↓reduceIte]
    split at refused
    · rename_i good
      simp only [good, ↓reduceIte]
      exact walk_stays_refused directories files refused present
    · rename_i bad
      exact ⟨.badName, by simp [bad]⟩

end Disk

end PixelTables
