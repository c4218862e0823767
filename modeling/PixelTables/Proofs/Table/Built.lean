import PixelTables.Proofs.Table.Push

namespace PixelTables.Table

inductive Built : Table → Prop
  | new (name stem : String) (width height : Nat) (format : WordFormat) :
      Built { name, stem, cellWidth := width, cellHeight := height, format }
  | withShape {t : Table} (shape : Shape) (built : Built t) : Built (t.withShape shape)
  | define {t : Table} (name value : String) (built : Built t) : Built (t.define name value)
  | push {t u : Table} {e : TableEntry} {i : Nat} (built : Built t) (pushed : t.push e = (u, .ok i)) :
      Built u

structure Sound (t : Table) : Prop where
  sizes : ∀ e ∈ t.entries, e.cell.width = t.cellWidth ∧ e.cell.height = t.cellHeight
  distinct : t.ids.Nodup

theorem Built.sound {t : Table} (built : t.Built) : t.Sound := by
  induction built with
  | new => exact ⟨by simp, by simp [ids]⟩
  | withShape _ _ ih => exact ⟨ih.sizes, ih.distinct⟩
  | define _ _ _ ih => exact ⟨ih.sizes, ih.distinct⟩
  | @push t u e i _ pushed ih =>
    obtain ⟨width, height, fresh, _, rfl⟩ := push_eq_ok.mp pushed
    constructor
    · intro other member
      rcases Array.mem_push.mp member with member | rfl
      · exact ih.sizes other member
      · exact ⟨width, height⟩
    · rw [ids_push]
      exact ih.distinct.append (by simp) (by simpa using fresh)

end PixelTables.Table
