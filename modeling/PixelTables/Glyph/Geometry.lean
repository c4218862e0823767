namespace PixelTables

def maxCellSide : UInt32 := 4096

def maxPadding : UInt32 := 1024

def maxCanvasSide : UInt32 := maxCellSide + 2 * maxPadding

def checkedAdd (a b : UInt32) : Option UInt32 :=
  if a.toNat + b.toNat < UInt32.size then some (a + b) else none

def checkedMul (a b : UInt32) : Option UInt32 :=
  if a.toNat * b.toNat < UInt32.size then some (a * b) else none

theorem checkedAdd_eq_some {a b c : UInt32} (h : checkedAdd a b = some c) :
    c.toNat = a.toNat + b.toNat := by
  simp only [checkedAdd, Option.ite_none_right_eq_some, Option.some.injEq] at h
  rw [← h.2, UInt32.toNat_add, Nat.mod_eq_of_lt h.1]

theorem checkedMul_eq_some {a b c : UInt32} (h : checkedMul a b = some c) :
    c.toNat = a.toNat * b.toNat := by
  simp only [checkedMul, Option.ite_none_right_eq_some, Option.some.injEq] at h
  rw [← h.2, UInt32.toNat_mul, Nat.mod_eq_of_lt h.1]

structure Geometry where
  cellWidth : UInt32
  cellHeight : UInt32
  fontSize : Float32
  padding : UInt32

def Geometry.canvasSize? (g : Geometry) : Option (UInt32 × UInt32) := do
  let margin ← checkedMul g.padding 2
  let width ← checkedAdd g.cellWidth margin
  let height ← checkedAdd g.cellHeight margin
  if width ≤ maxCanvasSide ∧ height ≤ maxCanvasSide then some (width, height) else none

end PixelTables
