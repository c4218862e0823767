import PixelTables.Toml.Number
import PixelTables.Toml.Tree

namespace PixelTables.Toml

def dropBlank (cs : List Char) : List Char := cs.dropWhile isBlank

def dropComment : List Char → List Char
  | '#' :: rest => rest.dropWhile isPlain
  | cs => cs

def lineBreak? : List Char → Option (List Char)
  | [] => some []
  | '\n' :: rest => some rest
  | '\r' :: '\n' :: rest => some rest
  | _ => none

def lineEnd? (cs : List Char) : Option (List Char) := lineBreak? (dropComment (dropBlank cs))

def dropLines : Nat → List Char → List Char
  | 0, cs => cs
  | fuel + 1, cs =>
    let rest := dropBlank cs
    match rest with
    | '#' :: _ | '\n' :: _ | '\r' :: _ => match lineEnd? rest with
      | some below => dropLines fuel below
      | none => rest
    | _ => rest

def isBareKey (c : Char) : Bool :=
  Text.isAsciiAlphanumeric c || c = '_' || c = '-'

def keyPart? (cs : List Char) : Option (String × List Char) :=
  match cs with
  | '"' :: _ | '\'' :: _ => (stringAt true cs).map fun (part, rest) => (String.ofList part, rest)
  | _ =>
    let part := cs.takeWhile isBareKey
    if part.isEmpty then none else some (String.ofList part, cs.dropWhile isBareKey)

def key? : Nat → List Char → Option (List String × List Char)
  | 0, _ => none
  | fuel + 1, cs => do
    let (part, rest) ← keyPart? (dropBlank cs)
    match dropBlank rest with
    | '.' :: rest =>
      let (parts, rest) ← key? fuel rest
      some (part :: parts, rest)
    | rest => some ([part], rest)

def endsWord (c : Char) : Bool :=
  isBlank c || c ∈ ['\n', '\r', ',', ']', '}', '#', '[', '{', '=', '"', '\'']

def word (cs : List Char) : List Char × List Char :=
  (cs.takeWhile (!endsWord ·), cs.dropWhile (!endsWord ·))

def longWord (cs : List Char) : List Char × List Char :=
  let (first, rest) := word cs
  match rest with
  | ' ' :: more =>
    let (second, rest') := word more
    if date? first = some [] ∧ isMoment (first ++ ' ' :: second) then
      (first ++ ' ' :: second, rest')
    else (first, rest)
  | _ => (first, rest)

def scalar? (cs : List Char) : Option Value :=
  if cs = "true".toList then some (.boolean true)
  else if cs = "false".toList then some (.boolean false)
  else match integer? cs with
    | some n => some (.ofInt n)
    | none => match float? cs with
      | some v => some v
      | none => if isMoment cs then some .moment else none

mutual

def value? : Nat → Nat → List Char → Option (Value × List Char)
  | 0, _, _ => none
  | fuel + 1, depth, cs =>
    match cs with
    | '"' :: _ | '\'' :: _ =>
      (stringAt false cs).map fun (text, rest) => (.text (String.ofList text), rest)
    | '[' :: rest => match depth with
      | 0 => none
      | depth + 1 => (items? fuel depth rest).map fun (items, rest) => (.array items, rest)
    | '{' :: rest => match depth with
      | 0 => none
      | depth + 1 => do
        let (pairs, rest) ← pairs? fuel depth rest
        let entries ← Tree.ofPairs? pairs
        some (.table entries.values, rest)
    | _ => do
      let (text, rest) := longWord cs
      let value ← scalar? text
      some (value, rest)

def items? : Nat → Nat → List Char → Option (List Value × List Char)
  | 0, _, _ => none
  | fuel + 1, depth, cs =>
    match dropLines fuel cs with
    | ']' :: rest => some ([], rest)
    | cs => do
      let (item, rest) ← value? fuel depth cs
      match dropLines fuel rest with
      | ',' :: rest =>
        let (items, rest) ← items? fuel depth rest
        some (item :: items, rest)
      | ']' :: rest => some ([item], rest)
      | _ => none

def pairs? : Nat → Nat → List Char → Option (List (List String × Value) × List Char)
  | 0, _, _ => none
  | fuel + 1, depth, cs =>
    match dropLines fuel cs with
    | '}' :: rest => some ([], rest)
    | cs => do
      let (key, rest) ← key? fuel cs
      match dropLines fuel rest with
      | '=' :: rest =>
        let (value, rest) ← value? fuel depth (dropLines fuel rest)
        match dropLines fuel rest with
        | ',' :: rest =>
          let (pairs, rest) ← pairs? fuel depth rest
          some ((key, value) :: pairs, rest)
        | '}' :: rest => some ([(key, value)], rest)
        | _ => none
      | _ => none

end

def maxDepth : Nat := 80

def statement? (fuel : Nat) (cs : List Char) : Option (Statement × List Char) :=
  match cs with
  | '[' :: '[' :: rest => do
    let (key, rest) ← key? fuel rest
    match rest with
    | ']' :: ']' :: rest => some (.element key, rest)
    | _ => none
  | '[' :: rest => do
    let (key, rest) ← key? fuel rest
    match rest with
    | ']' :: rest => some (.table key, rest)
    | _ => none
  | _ => do
    let (key, rest) ← key? fuel cs
    match rest with
    | '=' :: rest =>
      let (value, rest) ← value? fuel maxDepth (dropBlank rest)
      some (.pair key value, rest)
    | _ => none

def statements? : Nat → List Char → Option (List Statement)
  | 0, _ => none
  | fuel + 1, cs =>
    match dropLines fuel cs with
    | [] => some []
    | cs => do
      let (statement, rest) ← statement? fuel cs
      let rest ← lineEnd? rest
      let more ← statements? fuel rest
      some (statement :: more)

def dropByteOrderMark : List Char → List Char
  | c :: rest => if c.toNat = 0xFEFF then rest else c :: rest
  | [] => []

/-- Reads a document. Every call of a reader takes a character or goes one level further down, of
    which there are three to a bracket. -/
def read? (text : String) : Option Entries := do
  let cs := dropByteOrderMark text.toList
  let statements ← statements? (4 * cs.length + 4) cs
  let tree ← Tree.ofStatements? statements
  some tree.values

end PixelTables.Toml
