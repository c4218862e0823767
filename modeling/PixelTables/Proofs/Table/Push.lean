import PixelTables.Table
import Mathlib.Data.List.Nodup

namespace PixelTables.Table

def ids (t : Table) : List String := t.entries.toList.map (·.id)

theorem indexOf?_isSome (t : Table) (id : String) : (t.indexOf? id).isSome = true ↔ id ∈ t.ids := by
  simp [indexOf?, ids, Array.findIdx?_isSome, Array.mem_iff_getElem]

theorem push_eq_ok {t u : Table} {e : TableEntry} {i : Nat} :
    t.push e = (u, .ok i) ↔ e.cell.width = t.cellWidth ∧ e.cell.height = t.cellHeight ∧
      e.id ∉ t.ids ∧ i = t.size ∧ u = { t with entries := t.entries.push e } := by
  rw [← indexOf?_isSome, push]
  by_cases same : e.cell.width = t.cellWidth ∧ e.cell.height = t.cellHeight
  · by_cases taken : (t.indexOf? e.id).isSome = true
    · simp [same, taken]
    · simp [same, taken, size, eq_comm, and_comm]
  · rw [if_pos (by simpa using same)]
    simp only [Prod.mk.injEq, reduceCtorEq, and_false, false_iff]
    exact fun ⟨width, height, _⟩ => same ⟨width, height⟩

theorem push_eq_error {t u : Table} {e : TableEntry} {failure : Failure}
    (refused : t.push e = (u, .error failure)) : u = t := by
  rw [push] at refused
  split at refused
  · exact (Prod.mk.inj refused).1.symm
  · split at refused
    · exact (Prod.mk.inj refused).1.symm
    · cases (Prod.mk.inj refused).2

theorem ids_push (t : Table) (e : TableEntry) :
    ids { t with entries := t.entries.push e } = t.ids ++ [e.id] := by
  simp [ids]

def extend (t : Table) (more : List TableEntry) : Table :=
  { t with entries := t.entries ++ more.toArray }

@[simp] theorem extend_nil (t : Table) : t.extend [] = t := by
  simp [extend]

theorem extend_push (t : Table) (e : TableEntry) (more : List TableEntry) :
    extend { t with entries := t.entries.push e } more = t.extend (e :: more) := by
  simp [extend]

theorem entries_extend (t : Table) (more : List TableEntry) :
    (t.extend more).entries.toList = t.entries.toList ++ more := by
  simp [extend]

/-- A table of cells of this size that holds none of the identifiers to come, which are distinct. -/
structure Expects (t : Table) (width height : Nat) (coming : List String) : Prop where
  width : t.cellWidth = width
  height : t.cellHeight = height
  distinct : (t.ids ++ coming).Nodup

theorem Expects.push {t : Table} {width height : Nat} {coming : List String} {e : TableEntry}
    (expects : t.Expects width height (e.id :: coming)) (cellWidth : e.cell.width = width)
    (cellHeight : e.cell.height = height) :
    ∃ u, t.push e = (u, .ok t.size) ∧ (∀ more, u.extend more = t.extend (e :: more)) ∧
      u.Expects width height coming := by
  have fresh : e.id ∉ t.ids := by
    intro member
    exact List.disjoint_of_nodup_append expects.distinct member (by simp)
  refine ⟨_, push_eq_ok.mpr ⟨cellWidth.trans expects.width.symm,
    cellHeight.trans expects.height.symm, fresh, rfl, rfl⟩, t.extend_push e, expects.width,
    expects.height, ?_⟩
  rw [ids_push, List.append_assoc]
  exact expects.distinct

end PixelTables.Table
