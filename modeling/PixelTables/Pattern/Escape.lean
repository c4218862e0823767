import PixelTables.Pattern.Basic
import PixelTables.Pattern.Options

namespace PixelTables.Pattern

inductive Escape where
  | char (c : Char)
  | set (spans : List (Nat × Nat))
  | look (look : Look)
  deriving DecidableEq, Repr

namespace Escape

def isPlain (c : Char) : Bool :=
  c.toNat < 0x80 && !Text.isAsciiAlphanumeric c && c ≠ '<' && c ≠ '>'

def control? : Char → Option Char
  | 'a' => some '\x07'
  | 'f' => some '\x0C'
  | 't' => some '\t'
  | 'n' => some '\n'
  | 'r' => some '\r'
  | 'v' => some '\x0B'
  | _ => none

def hexValue? (c : Char) : Option Nat :=
  if Text.isAsciiDigit c then some (c.toNat - 0x30)
  else
    let small := (Text.lowerAscii c).toNat
    if 0x61 ≤ small ∧ small ≤ 0x66 then some (small - 0x57) else none

def fixedHex? (o : Options) : Nat → Nat → List Char → Option (Nat × List Char)
  | 0, value, cs => some (value, cs)
  | _ + 1, _, [] => none
  | count + 1, value, c :: rest => do
    let digit ← hexValue? c
    fixedHex? o count (value * 16 + digit) (o.skip rest)

def bracedHex? (o : Options) : Nat → List Char → List Char → Option (List Char × List Char)
  | 0, _, _ => none
  | fuel + 1, digits, cs =>
    match o.skip cs with
    | [] => none
    | '}' :: rest => some (digits.reverse, o.skip rest)
    | c :: rest => if (hexValue? c).isSome then bracedHex? o fuel (c :: digits) rest else none

/-- Reads a character by its code. Two digits name a byte, which has to be a character by itself. -/
def code? (o : Options) (digits : Nat) (cs : List Char) : Option (Char × List Char) :=
  match o.skip cs with
  | '{' :: rest => do
    let (found, rest) ← bracedHex? o (rest.length + 1) [] rest
    let value := found.foldl (fun n c => n * 16 + (hexValue? c).getD 0) 0
    let c ← if found.isEmpty then none else Text.charOfCode? value
    some (c, rest)
  | cs => do
    let (value, rest) ← fixedHex? o digits 0 cs
    let c ← Text.charOfCode? value
    if digits = 2 ∧ !o.unicode ∧ 0x80 ≤ value then none else some (c, rest)

def className? : Char → Option String
  | 'd' => some "digit"
  | 's' => some "space"
  | 'w' => some "word"
  | _ => none

def edge? : String → Option Look
  | "start" => some .wordStart
  | "end" => some .wordEnd
  | "start-half" => some .wordNotBefore
  | "end-half" => some .wordNotAfter
  | _ => none

def isEdgeName (c : Char) : Bool := Text.isAsciiLetter c || c = '-'

def edgeName? (o : Options) : Nat → List Char → List Char → Option (String × List Char)
  | 0, _, _ => none
  | fuel + 1, name, cs =>
    match cs with
    | '}' :: rest => some (String.ofList name.reverse, rest)
    | c :: rest => if isEdgeName c then edgeName? o fuel (c :: name) (o.skip rest) else none
    | [] => none

def wordEdge? (o : Options) (cs : List Char) : Option (Look × List Char) :=
  match cs with
  | '{' :: rest => match o.skip rest with
    | [] => none
    | c :: more =>
      if isEdgeName c then do
        let (name, rest) ← edgeName? o (more.length + 2) [] (c :: more)
        let look ← edge? name
        some (look, rest)
      else some (.wordEdge, cs)
  | _ => some (.wordEdge, cs)

def word? (o : Options) (found : Look × List Char) : Option (Escape × List Char) :=
  if o.unicode then none else some (.look found.1, found.2)

def read? (o : Options) : List Char → Option (Escape × List Char)
  | [] => none
  | c :: rest =>
    if isPlain c then some (.char c, rest)
    else match c with
      | 'x' => (code? o 2 rest).map fun (c, rest) => (.char c, rest)
      | 'u' => (code? o 4 rest).map fun (c, rest) => (.char c, rest)
      | 'U' => (code? o 8 rest).map fun (c, rest) => (.char c, rest)
      | 'A' => some (.look .textStart, rest)
      | 'z' => some (.look .textEnd, rest)
      | 'b' => (wordEdge? o rest).bind (word? o)
      | 'B' => word? o (.noWordEdge, rest)
      | '<' => word? o (.wordStart, rest)
      | '>' => word? o (.wordEnd, rest)
      | _ => match control? c with
        | some c => some (.char c, rest)
        | none => do
          let spans ← (className? c).bind CharSet.named?
          if o.unicode then none else some (.set spans, rest)

end Escape

end PixelTables.Pattern
