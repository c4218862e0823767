import PixelTables.Pattern.CharSet
import PixelTables.Text.Ascii

namespace PixelTables

namespace Pattern

structure Place where
  before : Option Char
  after : Option Char
  deriving DecidableEq, Repr

inductive Look where
  | textStart
  | textEnd
  | lineStart
  | lineEnd
  | anyLineStart
  | anyLineEnd
  | wordEdge
  | noWordEdge
  | wordStart
  | wordEnd
  | wordNotBefore
  | wordNotAfter
  deriving DecidableEq, Repr

def isWord (c : Char) : Bool := Text.isAsciiAlphanumeric c || c = '_'

def Look.holds (look : Look) (p : Place) : Bool :=
  let before := p.before.any isWord
  let after := p.after.any isWord
  match look with
  | .textStart => p.before.isNone
  | .textEnd => p.after.isNone
  | .lineStart => p.before.isNone || p.before = some '\n'
  | .lineEnd => p.after.isNone || p.after = some '\n'
  | .anyLineStart =>
    p.before.isNone || p.before = some '\n' || (p.before = some '\r' && p.after ≠ some '\n')
  | .anyLineEnd =>
    p.after.isNone || p.after = some '\r' || (p.after = some '\n' && p.before ≠ some '\r')
  | .wordEdge => before != after
  | .noWordEdge => before == after
  | .wordStart => !before && after
  | .wordEnd => before && !after
  | .wordNotBefore => !before
  | .wordNotAfter => !after

end Pattern

inductive Pattern where
  | nothing
  | one (set : Pattern.CharSet)
  | look (look : Pattern.Look)
  | seq (a b : Pattern)
  | either (a b : Pattern)
  | times (p : Pattern) (least : Nat) (most : Option Nat)
  deriving DecidableEq, Repr

namespace Pattern

def places : Option Char → List Char → List Place
  | before, [] => [⟨before, none⟩]
  | before, c :: rest => ⟨before, some c⟩ :: places (some c) rest

abbrev Marks := List Bool

namespace Marks

def merge (a b : Marks) : Marks := List.zipWith (· || ·) a b

def advance (set : CharSet) (places : List Place) (marks : Marks) : Marks :=
  false :: ((places.zip marks).dropLast.map fun (p, m) => m && p.after.any fun c => set.contains c.toNat)

def walk (step : Marks → Marks) : Nat → Marks → Marks
  | 0, marks => marks
  | count + 1, marks => if marks.any id then walk step count (step marks) else marks

def spread (step : Marks → Marks) : Nat → Marks → Marks
  | 0, marks => marks
  | count + 1, marks =>
    let more := merge marks (step marks)
    if more = marks then marks else spread step count more

end Marks

/-- The places reached from others, which are followed all at once. In a text of few places no more
    steps than these make a difference. -/
def reach (places : List Place) : Pattern → Marks → Marks
  | .nothing, marks => marks
  | .one set, marks => Marks.advance set places marks
  | .look l, marks => List.zipWith (fun p m => m && l.holds p) places marks
  | .seq a b, marks => reach places b (reach places a marks)
  | .either a b, marks => Marks.merge (reach places a marks) (reach places b marks)
  | .times p least most, marks =>
    let enough := fun n => min n places.length
    let started := Marks.walk (reach places p) (enough least) marks
    let more := match most with
      | some most => enough (most - least)
      | none => places.length
    Marks.spread (reach places p) more started

def occursIn (p : Pattern) (text : List Char) : Bool :=
  let places := places none text
  (reach places p (places.map fun _ => true)).any id

end Pattern

end PixelTables
