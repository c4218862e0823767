import PixelTables.Cell
import PixelTables.Failure

namespace PixelTables

/-- How an entry came to hold its cell: from the asset's own source, from the profile's fallback
    image, or left blank for a reason. -/
inductive Status where
  | rendered
  | substituted (fallback : Path)
  | degraded (reason : String)
  deriving DecidableEq, Repr

namespace Status

def isDegraded : Status → Bool
  | .degraded _ => true
  | _ => false

def isSubstituted : Status → Bool
  | .substituted _ => true
  | _ => false

end Status

structure TableEntry where
  id : String
  label : String
  cell : Cell
  status : Status

inductive WordFormat where
  | byte
  | hex32
  deriving DecidableEq, Repr

/-- `grid` indexes an entry by row and column, `flat` by one position in it. -/
inductive Layout where
  | grid
  | flat
  deriving DecidableEq, Repr, Inhabited

/-- The layout and the constant names that a table is declared with. The count constant exceeds
    the number of entries by `countOffset`, which the array's first dimension subtracts again. -/
structure Shape where
  layout : Layout := .grid
  countName : String := "COUNT"
  countOffset : UInt32 := 0
  sizeName : String := "SIZE"
  deriving DecidableEq, Repr, Inhabited

def Shape.flat (countName : String) : Shape := { layout := .flat, countName }

/-- Cells of one size under distinct identifiers. The position of an entry is its index, and
    every constant starts with the stem. -/
structure Table where
  name : String
  stem : String
  cellWidth : Nat
  cellHeight : Nat
  format : WordFormat
  shape : Shape := {}
  defines : List (String × String) := []
  entries : Array TableEntry := #[]

namespace Table

def withShape (t : Table) (shape : Shape) : Table := { t with shape }

def constant (t : Table) (name : String) : String := t.stem ++ "_" ++ name

def define (t : Table) (name value : String) : Table :=
  { t with defines := t.defines ++ [(t.constant name, value)] }

def indexOf? (t : Table) (id : String) : Option Nat := t.entries.findIdx? (·.id = id)

def get? (t : Table) (id : String) : Option TableEntry := do
  let index ← t.indexOf? id
  t.entries[index]?

/-- Appends an entry and tells its index. The size of the cell is looked at before the
    identifier. -/
def push (t : Table) (e : TableEntry) : Table × Except Failure Nat :=
  let found := (e.cell.width, e.cell.height)
  let expected := (t.cellWidth, t.cellHeight)
  if found ≠ expected then (t, .error (.cellSize e.id found expected))
  else if (t.indexOf? e.id).isSome then (t, .error (.duplicateId t.name e.id))
  else ({ t with entries := t.entries.push e }, .ok t.entries.size)

def size (t : Table) : Nat := t.entries.size

def degraded (t : Table) : List TableEntry := t.entries.toList.filter (·.status.isDegraded)

def substituted (t : Table) : List TableEntry := t.entries.toList.filter (·.status.isSubstituted)

end Table

end PixelTables
