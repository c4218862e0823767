import PixelTables.Listing
import PixelTables.Proofs.Text.Numerals
import PixelTables.Text.Pieces
import Mathlib.Data.List.Basic

namespace PixelTables.Listing

abbrev Line := List Char

def lines (text : String) : List Line := Text.pieces '\n' text.toList

def readWord? : Line → Option Nat
  | '0' :: 'x' :: digit :: digits => Text.numeral? 16 (digit :: digits)
  | digit :: digits => Text.numeral? 10 (digit :: digits)
  | [] => none

def rowFrame : Layout → String × String
  | .grid => ("        \x7b", "\x7d,")
  | .flat => ("        ", ",")

def readRow? (layout : Layout) (line : Line) : Option (List Nat) := do
  let framed ← (rowFrame layout).1.toList.isPrefixOf? line
  let inner ← (rowFrame layout).2.toList.isSuffixOf? framed
  (Text.pieces ',' inner).mapM fun word => readWord? (word.dropWhile (· = ' '))

def readId? (line : Line) : Option String := do
  let opened ← "    [".toList.isPrefixOf? line
  let _ ← "] = \x7b // ".toList.isPrefixOf? (opened.dropWhile (· ≠ ']'))
  some (String.ofList (opened.takeWhile (· ≠ ']')))

structure Listed where
  id : String
  rows : List (List Nat)
  deriving DecidableEq, Repr

/-- Reads entries up to the end of the array: a line with the identifier, as many rows as there
    have to be, and a line that closes the entry. -/
def readEntries? (layout : Layout) (height : Nat) : List Line → Option (List Listed)
  | [] => none
  | line :: rest =>
    if line = "\x7d;".toList then some []
    else do
      let id ← readId? line
      let rows ← (rest.take height).mapM (readRow? layout)
      if rest[height]? = some "    \x7d,".toList then
        let more ← readEntries? layout height (rest.drop (height + 1))
        some (⟨id, rows⟩ :: more)
      else none
termination_by ls => ls.length
decreasing_by
  simp only [List.length_drop, List.length_cons]
  omega

def arrayBody (ls : List Line) : List Line :=
  (ls.dropWhile fun line => !" = \x7b".toList.isSuffixOf line).drop 1

def read? (layout : Layout) (height : Nat) (text : String) : Option (List Listed) :=
  readEntries? layout height (arrayBody (lines text))

/-- The word at a C subscript: `[id][y][x]` of a grid, and `[id][y * width + x]` where an entry has
    one dimension only. -/
def subscript? (layout : Layout) (width : Nat) (listed : List Listed) (id : String) (x y : Nat) :
    Option Nat := do
  let entry ← listed.find? (·.id = id)
  match layout with
  | .grid =>
    let row ← entry.rows[y]?
    row[x]?
  | .flat => entry.rows.flatten[y * width + x]?

theorem isPrefixOf?_append (start rest : Line) : start.isPrefixOf? (start ++ rest) = some rest := by
  induction start with
  | nil => cases rest <;> rfl
  | cons c start ih => simp [List.isPrefixOf?, ih]

theorem isSuffixOf?_append (body ending : Line) :
    ending.isSuffixOf? (body ++ ending) = some body := by
  rw [List.isSuffixOf?, List.reverse_append, isPrefixOf?_append, Option.map_some,
    List.reverse_reverse]

theorem mapM_of_forall {α β : Type} {f : α → Option β} {g : α → β} {as : List α}
    (each : ∀ a ∈ as, f a = some (g a)) : as.mapM f = some (as.map g) := by
  induction as with
  | nil => rfl
  | cons a rest ih =>
    rw [List.mapM_cons, each a (by simp), ih fun b member => each b (by simp [member])]
    rfl

end PixelTables.Listing
