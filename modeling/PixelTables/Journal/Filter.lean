import PixelTables.Journal
import PixelTables.Pattern.Grammar
import PixelTables.Text.Ascii
import PixelTables.Text.Pieces

namespace PixelTables

/-- Lets notes up to a level through, from all parts or from those whose name starts in one way.
    A limit of zero lets none through. -/
structure Directive where
  part : Option (List Char)
  limit : Nat
  deriving DecidableEq, Repr

structure Filter where
  directives : List Directive
  wanted : Option Pattern := none
  deriving DecidableEq, Repr

namespace Filter

def most : Nat := Level.trace.rank

def levels : List (String × Nat) :=
  [("off", 0), ("error", 1), ("warn", 2), ("info", 3), ("debug", 4), ("trace", 5)]

def limit? (word : List Char) : Option Nat :=
  levels.lookup (String.ofList (word.map Text.lowerAscii))

def directive? (text : List Char) : Option Directive :=
  match Text.pieces '=' text with
  | [word] => match limit? word with
    | some limit => some ⟨none, limit⟩
    | none => some ⟨some word, most⟩
  | [part, level] =>
    let level := Text.trimmed level
    if level.isEmpty then some ⟨some part, most⟩
    else (limit? level).map fun limit => ⟨some part, limit⟩
  | _ => none

def put (d : Directive) : List Directive → List Directive
  | [] => [d]
  | e :: rest => if e.part = d.part then d :: rest else e :: put d rest

/-- Reads a filter. Directives stand between commas, and a slash comes before a pattern; one that
    cannot be read is left out. Without any directive only errors pass. -/
def ofText (text : List Char) : Filter :=
  let errorsOnly : List Directive := [⟨none, Level.error.rank⟩]
  let read (given : List Char) : List Directive :=
    let found := ((Text.pieces ',' given).map Text.trimmed).filter (!·.isEmpty)
    (found.filterMap directive?).foldl (fun ds d => put d ds) []
  let filled (ds : List Directive) : List Directive := if ds.isEmpty then errorsOnly else ds
  match Text.pieces '/' text with
  | [given] => ⟨filled (read given), none⟩
  | [given, wanted] => ⟨filled (read given), Pattern.ofText? wanted⟩
  | _ => ⟨errorsOnly, none⟩

def reach (part : List Char) (d : Directive) : Option Nat :=
  match d.part with
  | none => some 0
  | some start => if start.isPrefixOf part then some start.length else none

/-- The limit of the directive that settles most of a name; of equals, the later one. -/
def limitFor (part : List Char) : List Directive → Option (Nat × Nat)
  | [] => none
  | d :: rest => match reach part d, limitFor part rest with
    | none, later => later
    | some own, none => some (own, d.limit)
    | some own, some (other, limit) =>
      if other < own then some (own, d.limit) else some (other, limit)

def passes (f : Filter) (n : Note) : Bool :=
  let limit := ((limitFor n.origin.name.toList f.directives).map (·.2)).getD 0
  n.level.rank ≤ limit && f.wanted.all fun wanted => wanted.occursIn n.text.toList

def standard : Filter := ⟨[⟨none, Level.info.rank⟩], none⟩

end Filter

end PixelTables
