import PixelTables.Toml.Value

namespace PixelTables.Toml

inductive Statement where
  | pair (key : List String) (value : Value)
  | table (key : List String)
  | element (key : List String)

/-- How a table came about: as a part of a heading for another, under a heading of its own, or as a
    part of a key. -/
inductive Origin where
  | passing
  | heading
  | dotted
  deriving DecidableEq, Repr

/-- What stands at a key while a document is read. Values are complete; tables may still grow. -/
inductive Node where
  | value (v : Value)
  | table (origin : Origin) (children : List (String × Node))
  | tables (elements : List (List (String × Node)))

abbrev Tree := List (String × Node)

namespace Tree

def put (key : String) (node : Node) : Tree → Tree
  | [] => [(key, node)]
  | (other, old) :: rest =>
    if other = key then (key, node) :: rest else (other, old) :: put key node rest

def changeLast (f : Tree → Option Tree) (elements : List Tree) : Option (List Tree) :=
  match elements.reverse with
  | [] => none
  | last :: before => (f last).map fun last => (last :: before).reverse

/-- Puts a value at a key that must be free. The way to it leads through tables without a heading of
    their own and through the last tables of arrays, and is made where it is missing. What it ends
    in has to be a table that a dotted key has made; `isOpen` tells that of the table it starts in. -/
def insertIn (value : Value) : Bool → List String → Tree → Option Tree
  | _, [], _ => none
  | isOpen, [key], tree => match tree.lookup key with
    | none => if isOpen then some (tree.put key (.value value)) else none
    | some _ => none
  | _, key :: next :: rest, tree => match tree.lookup key with
    | none => do
      let children ← insertIn value true (next :: rest) []
      some (tree.put key (.table .dotted children))
    | some (.table .heading _) => none
    | some (.table origin children) => do
      let children ← insertIn value (origin = .dotted) (next :: rest) children
      some (tree.put key (.table origin children))
    | some (.tables elements) => do
      let elements ← changeLast (insertIn value false (next :: rest)) elements
      some (tree.put key (.tables elements))
    | some (.value _) => none

def insert (value : Value) (key : List String) (tree : Tree) : Option Tree :=
  insertIn value true key tree

def change (f : Tree → Option Tree) : List String → Tree → Option Tree
  | [], tree => f tree
  | key :: rest, tree => match tree.lookup key with
    | none => do
      let children ← change f rest []
      some (tree.put key (.table .passing children))
    | some (.table origin children) => do
      let children ← change f rest children
      some (tree.put key (.table origin children))
    | some (.tables elements) => do
      let elements ← changeLast (change f rest) elements
      some (tree.put key (.tables elements))
    | some (.value _) => none

def openTable (key : String) (tree : Tree) : Option Tree :=
  match tree.lookup key with
  | none => some (tree.put key (.table .heading []))
  | some (.table .passing children) => some (tree.put key (.table .heading children))
  | some _ => none

def openElement (key : String) (tree : Tree) : Option Tree :=
  match tree.lookup key with
  | none => some (tree.put key (.tables [[]]))
  | some (.tables elements) => some (tree.put key (.tables (elements ++ [[]])))
  | some _ => none

def openAt (opener : String → Tree → Option Tree) (key : List String) (tree : Tree) :
    Option Tree := do
  let last ← key.getLast?
  change (opener last) key.dropLast tree

def apply (state : List String × Tree) : Statement → Option (List String × Tree)
  | .pair key value => do
    let tree ← change (insert value key) state.1 state.2
    some (state.1, tree)
  | .table key => (openAt openTable key state.2).map fun tree => (key, tree)
  | .element key => (openAt openElement key state.2).map fun tree => (key, tree)

def ofStatements? (statements : List Statement) : Option Tree :=
  (statements.foldlM apply ([], [])).map (·.2)

def ofPairs? (pairs : List (List String × Value)) : Option Tree :=
  pairs.foldlM (fun tree (key, value) => insert value key tree) []

end Tree

mutual

def Node.finished : Node → Value
  | .value v => v
  | .table _ children => .table (finishedAll children)
  | .tables elements => .array (finishedElements elements)

def finishedAll : List (String × Node) → Entries
  | [] => []
  | (key, node) :: rest => (key, node.finished) :: finishedAll rest

def finishedElements : List (List (String × Node)) → List Value
  | [] => []
  | children :: rest => .table (finishedAll children) :: finishedElements rest

end

def Tree.values (t : Tree) : Entries := finishedAll t

end PixelTables.Toml
