namespace PixelTables.Toml

/-- A value of a document. Dates and times are told apart from all else, but not from each
    other, and so are numbers that are out of range. Integers have 64 bits, with a sign or
    without. -/
inductive Value where
  | text (s : String)
  | integer (n : Int)
  | float (x : Float)
  | outOfRange
  | boolean (b : Bool)
  | moment
  | array (items : List Value)
  | table (entries : List (String × Value))

abbrev Entries := List (String × Value)

namespace Value

def ofInt (n : Int) : Value :=
  if Int64.minValue.toInt ≤ n ∧ n < UInt64.size then .integer n else .outOfRange

mutual

def inRange : Value → Bool
  | .outOfRange => false
  | .array items => allInRange items
  | .table entries => entriesInRange entries
  | _ => true

def allInRange : List Value → Bool
  | [] => true
  | v :: rest => v.inRange && allInRange rest

def entriesInRange : List (String × Value) → Bool
  | [] => true
  | (_, v) :: rest => v.inRange && entriesInRange rest

end

end Value

end PixelTables.Toml
