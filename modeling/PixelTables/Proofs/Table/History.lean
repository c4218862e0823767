import PixelTables.Proofs.Table.Built

namespace PixelTables.Table

theorem indexOf?_eq_none {t : Table} {id : String} : t.indexOf? id = none ↔ id ∉ t.ids := by
  rw [← indexOf?_isSome]
  cases t.indexOf? id <;> simp

theorem indexOf?_of_getElem? {t : Table} (distinct : t.ids.Nodup) {i : Nat} {e : TableEntry}
    (stands : t.entries[i]? = some e) : t.indexOf? e.id = some i := by
  obtain ⟨inside, rfl⟩ := Array.getElem?_eq_some_iff.mp stands
  rw [indexOf?, Array.findIdx?_eq_some_iff_getElem]
  refine ⟨inside, by simp, fun j before same => ?_⟩
  have place : t.ids[j]? = t.ids[i]? := by
    simp only [decide_eq_true_eq] at same
    simp [ids, inside, Nat.lt_trans before inside, same]
  have equal := (List.getElem?_inj (by simp [ids]; omega) distinct).mp place
  omega

theorem get?_of_getElem? {t : Table} (distinct : t.ids.Nodup) {i : Nat} {e : TableEntry}
    (stands : t.entries[i]? = some e) : t.get? e.id = some e := by
  rw [get?, indexOf?_of_getElem? distinct stands]
  exact stands

theorem get?_eq_none {t : Table} {id : String} (absent : id ∉ t.ids) : t.get? id = none := by
  rw [get?, indexOf?_eq_none.mpr absent]
  rfl

inductive Operation where
  | push (e : TableEntry)
  | define (name value : String)
  | withShape (shape : Shape)

/-- An entry that was offered to a table, and what the table said. -/
structure Offer where
  entry : TableEntry
  answer : Except Failure Nat

def Offer.accepted? (offer : Offer) : Option TableEntry :=
  match offer.answer with
  | .ok _ => some offer.entry
  | .error _ => none

def perform (t : Table) : Operation → Table × List Offer
  | .push e =>
    let (u, answer) := t.push e
    (u, [⟨e, answer⟩])
  | .define name value => (t.define name value, [])
  | .withShape shape => (t.withShape shape, [])

def performAll (t : Table) : List Operation → Table × List Offer
  | [] => (t, [])
  | first :: rest =>
    let (u, offers) := t.perform first
    let (last, more) := u.performAll rest
    (last, offers ++ more)

theorem Built.perform {t : Table} (built : t.Built) (o : Operation) : (t.perform o).1.Built := by
  cases o with
  | push e =>
    rcases pushed : t.push e with ⟨u, answer⟩
    simp only [Table.perform, pushed]
    cases answer with
    | error failure =>
      rw [push_eq_error pushed]
      exact built
    | ok i => exact built.push pushed
  | define name value => exact built.define name value
  | withShape shape => exact built.withShape shape

theorem entries_perform (t : Table) (o : Operation) :
    (t.perform o).1.entries.toList = t.entries.toList ++ (t.perform o).2.filterMap (·.accepted?) := by
  cases o with
  | push e =>
    rcases pushed : t.push e with ⟨u, answer⟩
    cases answer with
    | error failure => simp [perform, pushed, Offer.accepted?, push_eq_error pushed]
    | ok i =>
      obtain ⟨_, _, _, _, grown⟩ := push_eq_ok.mp pushed
      simp [perform, pushed, Offer.accepted?, grown]
  | define name value => simp [perform, define]
  | withShape shape => simp [perform, withShape]

structure SameFrame (t u : Table) : Prop where
  name : u.name = t.name
  stem : u.stem = t.stem
  cellWidth : u.cellWidth = t.cellWidth
  cellHeight : u.cellHeight = t.cellHeight
  format : u.format = t.format

theorem SameFrame.refl (t : Table) : SameFrame t t := ⟨rfl, rfl, rfl, rfl, rfl⟩

theorem SameFrame.trans {t u v : Table} (first : SameFrame t u) (second : SameFrame u v) :
    SameFrame t v :=
  ⟨second.name.trans first.name, second.stem.trans first.stem,
    second.cellWidth.trans first.cellWidth, second.cellHeight.trans first.cellHeight,
    second.format.trans first.format⟩

theorem perform_frame (t : Table) (o : Operation) : SameFrame t (t.perform o).1 := by
  cases o with
  | push e =>
    rcases pushed : t.push e with ⟨u, answer⟩
    simp only [perform, pushed]
    cases answer with
    | error failure =>
      rw [push_eq_error pushed]
      exact .refl t
    | ok i =>
      obtain ⟨_, _, _, _, grown⟩ := push_eq_ok.mp pushed
      rw [grown]
      exact ⟨rfl, rfl, rfl, rfl, rfl⟩
  | define name value => exact ⟨rfl, rfl, rfl, rfl, rfl⟩
  | withShape shape => exact ⟨rfl, rfl, rfl, rfl, rfl⟩

theorem Built.performAll {t : Table} (built : t.Built) (operations : List Operation) :
    (t.performAll operations).1.Built := by
  induction operations generalizing t with
  | nil => exact built
  | cons o rest ih => exact ih (built.perform o)

theorem entries_performAll (t : Table) (operations : List Operation) :
    (t.performAll operations).1.entries.toList =
      t.entries.toList ++ (t.performAll operations).2.filterMap (·.accepted?) := by
  induction operations generalizing t with
  | nil => simp [performAll]
  | cons o rest ih =>
    simp only [performAll, List.filterMap_append]
    rw [ih, entries_perform, List.append_assoc]

theorem performAll_frame (t : Table) (operations : List Operation) :
    SameFrame t (t.performAll operations).1 := by
  induction operations generalizing t with
  | nil => exact .refl t
  | cons o rest ih => exact (t.perform_frame o).trans (ih _)

/-- How a table answers the next entry. A wrong size is named first, and a refusal changes nothing. -/
structure Answers (t : Table) (e : TableEntry) : Prop where
  wrongSize : (e.cell.width, e.cell.height) ≠ (t.cellWidth, t.cellHeight) → t.push e =
    (t, .error (.cellSize e.id (e.cell.width, e.cell.height) (t.cellWidth, t.cellHeight)))
  taken : (e.cell.width, e.cell.height) = (t.cellWidth, t.cellHeight) → e.id ∈ t.ids →
    t.push e = (t, .error (.duplicateId t.name e.id))
  fits : (e.cell.width, e.cell.height) = (t.cellWidth, t.cellHeight) → e.id ∉ t.ids →
    t.push e = ({ t with entries := t.entries.push e }, .ok t.size)
  refused : ∀ failure, (t.push e).2 = .error failure → (t.push e).1 = t

theorem answers (t : Table) (e : TableEntry) : t.Answers e where
  wrongSize other := by rw [push, if_pos other]
  taken same member := by
    rw [push, if_neg (not_not_intro same), if_pos ((t.indexOf?_isSome e.id).mpr member)]
  fits same fresh := by
    obtain ⟨width, height⟩ := Prod.mk.inj same
    exact push_eq_ok.mpr ⟨width, height, fresh, rfl, rfl⟩
  refused failure refusal := push_eq_error (Prod.ext rfl refusal)

structure Consistent (start t : Table) (offers : List Offer) : Prop where
  frame : SameFrame start t
  sizes : ∀ e ∈ t.entries, e.cell.width = t.cellWidth ∧ e.cell.height = t.cellHeight
  distinct : t.ids.Nodup
  accepted : t.entries.toList = offers.filterMap (·.accepted?)
  found : ∀ i e, t.entries[i]? = some e → t.indexOf? e.id = some i ∧ t.get? e.id = some e
  unknown : ∀ id, id ∉ t.ids → t.indexOf? id = none ∧ t.get? id = none
  answers : ∀ e, t.Answers e

/-- Whatever is done with an empty table, it holds the entries that it accepted, in their order and
    each under its own identifier. -/
theorem performAll_consistent (name stem : String) (width height : Nat) (format : WordFormat)
    (operations : List Operation) :
    let start : Table := { name, stem, cellWidth := width, cellHeight := height, format }
    Consistent start (start.performAll operations).1 (start.performAll operations).2 := by
  intro start
  have sound := ((Built.new name stem width height format).performAll operations).sound
  refine ⟨start.performAll_frame operations, sound.sizes, sound.distinct, ?_, ?_, ?_,
    fun e => answers _ e⟩
  · rw [entries_performAll]
    rfl
  · intro i e stands
    exact ⟨indexOf?_of_getElem? sound.distinct stands, get?_of_getElem? sound.distinct stands⟩
  · intro id absent
    exact ⟨indexOf?_eq_none.mpr absent, get?_eq_none absent⟩

end PixelTables.Table
