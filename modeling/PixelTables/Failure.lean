import PixelTables.Path
import PixelTables.Text.Quoted

namespace PixelTables

inductive Fault where
  | tableTwice (table : String)
  | notIdentifier (what name : String)
  | outputTwice (path : Path)
  | emptyCell (table : String)
  | largeCell (table : String) (limit : Nat)
  | largePadding (table : String) (limit : Nat)
  | noCharacters (table : String)
  | leavesCharacters (table : String) (first : Char) (count : UInt32)
  | fontSize (table : String)
  | cellSize (table : String) (limit : Nat)
  | noIcons (table : String)
  | iconTwice (table icon : String)
  | contentSize (table icon : String) (size limit : UInt32)
  | constantTwice (table constant : String)
  | indexClash (table index : String)
  deriving DecidableEq, Repr

namespace Fault

def message : Fault → String
  | .tableTwice table => s!"table `{table}` is declared twice"
  | .notIdentifier what name => s!"{what} `{name}` is not a C identifier"
  | .outputTwice path => s!"'{path.text}' is the output of two artifacts"
  | .emptyCell table => s!"`{table}`: cell dimensions must be non-zero"
  | .largeCell table limit => s!"`{table}`: cell dimensions must not exceed {limit}"
  | .largePadding table limit => s!"`{table}`: padding must not exceed {limit}"
  | .noCharacters table => s!"`{table}`: count must be non-zero"
  | .leavesCharacters table first count =>
    s!"`{table}`: U+{Text.hexUpper 4 first.toNat} plus {count} does not stay within valid characters"
  | .fontSize table => s!"`{table}`: font size must be positive"
  | .cellSize table limit => s!"`{table}`: cell size must be within 1..={limit}"
  | .noIcons table => s!"`{table}`: no icon entries"
  | .iconTwice table icon => s!"`{table}`: icon id `{icon}` is declared twice"
  | .contentSize table icon size limit =>
    s!"`{table}`: content size {size} of `{icon}` must be within 1..={limit}"
  | .constantTwice table constant => s!"`{table}`: constant `{constant}` is emitted twice"
  | .indexClash table index => s!"`{table}`: index `{index}` clashes with a constant"

end Fault

inductive ConfigProblem where
  | unreadable
  | malformed
  | fault (fault : Fault)
  deriving DecidableEq, Repr

inductive FontProblem where
  | unreadable
  | notAFont
  deriving DecidableEq, Repr

/-- What ends the program without a word: a palette that ends within a color, or a glyph with data for
    points that it does not have. -/
inductive Breakdown where
  | palette (path : Path)
  | glyph (ch : Char)
  deriving DecidableEq, Repr

/-- What ends a run. Trouble with a single asset is recorded on its table entry instead. -/
inductive Failure where
  | config (path : Option Path) (problem : ConfigProblem)
  | font (path : Path) (problem : FontProblem)
  | image (path : Path)
  | breakdown (breakdown : Breakdown)
  | cellSize (id : String) (found expected : Nat × Nat)
  | duplicateId (table id : String)
  | write (path : Path)
  deriving DecidableEq, Repr

namespace Failure

def fault (f : Fault) : Failure := .config none (.fault f)

def withPath (path : Path) : Failure → Failure
  | .config none problem => .config (some path) problem
  | other => other

def path? : Failure → Option Path
  | .config path _ => path
  | .font path _ => some path
  | .image path => some path
  | .breakdown (.palette path) => some path
  | .write path => some path
  | .breakdown (.glyph _) | .cellSize .. | .duplicateId .. => none

/-- Whether the failure passes on one of the machine, whose wording is not part of the message. -/
def isCaused : Failure → Bool
  | .config _ .unreadable | .font _ .unreadable | .image _ | .write _ => true
  | _ => false

def isAbrupt : Failure → Bool
  | .breakdown _ => true
  | _ => false

def heading : Failure → String
  | .config .. => "invalid configuration"
  | .font .. => "failed to load font"
  | .image _ => "failed to decode image"
  | .breakdown (.palette _) => "the palette ends within a color"
  | .breakdown (.glyph _) => "a glyph has no points for its data"
  | .cellSize .. => "cell size mismatch"
  | .duplicateId .. => "duplicate asset identifier"
  | .write _ => "failed to write artifact"

def detail? : Failure → Option String
  | .config _ (.fault f) => some f.message
  | .font _ .notAFont => some "not a readable font file"
  | .cellSize id found expected =>
    some s!"`{id}` is {found.1}x{found.2} but the table holds {expected.1}x{expected.2} cells"
  | .duplicateId table id => some s!"`{id}` appears twice in table `{table}`"
  | _ => none

def message (f : Failure) : String :=
  let named := match f.path? with
    | some path => f.heading ++ s!" '{path.text}'"
    | none => f.heading
  match f.detail? with
  | some detail => named ++ ": " ++ detail
  | none => named

end Failure

end PixelTables
