import PixelTables.Pattern.Bracket

namespace PixelTables.Pattern

/-- A part of a pattern: how deep it is made of others, about how many bytes it takes with all
    repetitions written out, and the names it gives to groups. Patterns that are too deep or take
    too many bytes are not read; what only switches options does not repeat. -/
structure Part where
  pattern : Pattern
  depth : Nat := 0
  size : Nat := 32
  names : List (List Char) := []
  repeats : Bool := true
  deriving DecidableEq, Repr

namespace Part

def ofSet (s : SetPart) : Part :=
  { pattern := .one s.set, depth := s.depth, size := if s.set.isShort then 48 else 420 }

def ofChar? (o : Options) (c : Char) : Option Part :=
  if o.ignoresCase && o.unicode then none
  else
    let set := if o.ignoresCase && Text.isAsciiLetter c then CharSet.caseless c.toNat c.toNat
      else .single c
    some { pattern := .one set, size := 32 * c.utf8Size }

def ofLook (l : Look) : Part := { pattern := .look l }

def dot? (o : Options) : Option Part :=
  let breaks := if o.anyLines then CharSet.union (.single '\n') (.single '\r') else .single '\n'
  let set := if o.dotIsAll then CharSet.all else .diff .all breaks
  if o.unicode then some (ofSet ⟨set, 0⟩) else none

def start (o : Options) : Part :=
  ofLook (if !o.linewise then .textStart else if o.anyLines then .anyLineStart else .lineStart)

def stop (o : Options) : Part :=
  ofLook (if !o.linewise then .textEnd else if o.anyLines then .anyLineEnd else .lineEnd)

def ofEscape? (o : Options) : Escape → Option Part
  | .char c => ofChar? o c
  | .set spans => (Bracket.ofSpans? o spans).map ofSet
  | .look l => some (ofLook l)

def join (glue : Pattern → Pattern → Pattern) (room : Nat) : List Part → Part
  | [] => { pattern := .nothing }
  | [part] => part
  | part :: rest =>
    let parts := part :: rest
    { pattern := rest.foldl (fun p q => glue p q.pattern) part.pattern
      depth := 1 + (parts.map (·.depth)).foldl max 0
      size := (parts.map (·.size + room)).foldl (· + ·) 0
      names := parts.flatMap (·.names) }

def sequence (parts : List Part) : Part := join .seq 0 parts

def choice (parts : List Part) : Part := join .either 68 parts

def grouped (p : Part) (room : Nat) (names : List (List Char)) : Part :=
  { p with depth := p.depth + 1, size := p.size + room, names := names ++ p.names, repeats := true }

def times? (least : Nat) (most : Option Nat) (p : Part) : Option Part :=
  if !p.repeats then none
  else
    let size := match most with
      | some 0 => 32
      | some most => most * p.size + (most - least) * 36 + 32
      | none => max least 1 * p.size + 68
    some { p with pattern := .times p.pattern least most, depth := p.depth + 1, size }

end Part

inductive Opening where
  | options (o : Options)
  | group (o : Options) (room : Nat) (names : List (List Char))
  deriving DecidableEq, Repr

namespace Grammar

def isNameStart (c : Char) : Bool := Text.isAsciiLetter c || c = '_' || 0x80 ≤ c.toNat

def isNamePart (c : Char) : Bool :=
  isNameStart c || Text.isAsciiDigit c || c = '.' || c = '[' || c = ']'

def named? (o : Options) (cs : List Char) : Option (Opening × List Char) :=
  match cs.takeWhile (· ≠ '>'), cs.dropWhile (· ≠ '>') with
  | first :: more, '>' :: rest =>
    if isNameStart first && more.all isNamePart then some (.group o 64 [first :: more], rest)
    else none
  | _, _ => none

def isOptionLetter (c : Char) : Bool := c ≠ ':' && c ≠ ')'

def opening? (o : Options) (cs : List Char) : Option (Opening × List Char) :=
  match o.skip cs with
  | '?' :: 'P' :: '<' :: rest => named? o rest
  | '?' :: '<' :: rest => named? o rest
  | '?' :: rest => do
    let letters := rest.takeWhile isOptionLetter
    let changed ← Options.setAll? true [] letters o
    match rest.dropWhile isOptionLetter with
    | ':' :: rest => some (.group changed 0 [], rest)
    | ')' :: rest => if letters.isEmpty then none else some (.options changed, rest)
    | _ => none
  | cs => some (.group o 64 [], cs)

def digits (o : Options) : Nat → List Char → List Char × List Char
  | 0, cs => ([], cs)
  | fuel + 1, cs =>
    match cs with
    | c :: rest =>
      if Text.isAsciiDigit c then
        let (more, rest) := digits o fuel (o.skip rest)
        (c :: more, rest)
      else ([], cs)
    | [] => ([], [])

def count? (o : Options) (cs : List Char) : Option (Nat × List Char) :=
  let (found, rest) := digits o (cs.length + 1) (cs.dropWhile Text.isBlank)
  let value := found.foldl (fun n c => n * 10 + (c.toNat - 0x30)) 0
  if found.isEmpty || UInt32.size ≤ value then none else some (value, rest.dropWhile Text.isBlank)

def counts? (o : Options) (cs : List Char) : Option (Nat × Option Nat × List Char) := do
  let (least, rest) ← count? o (o.skip cs)
  let (most, rest) ← match rest with
    | ',' :: rest => match o.skip rest with
      | '}' :: rest => some (none, '}' :: rest)
      | rest => (count? o rest).map fun (most, rest) => (some most, rest)
    | rest => some (some least, rest)
  match rest with
  | '}' :: rest => if most.all (least ≤ ·) then some (least, most, o.skip rest) else none
  | _ => none

def dropMark : List Char → List Char
  | '?' :: rest => rest
  | cs => cs

def repetition? (o : Options) : List Char → Option (Option (Nat × Option Nat × List Char))
  | '?' :: rest => some (some (0, some 1, rest))
  | '*' :: rest => some (some (0, none, rest))
  | '+' :: rest => some (some (1, none, rest))
  | '{' :: rest => (counts? o rest).map some
  | _ => some none

def single? (o : Options) : List Char → Option (Part × List Char)
  | [] => none
  | '[' :: rest => (Bracket.read? o rest).map fun (s, rest) => (.ofSet s, rest)
  | '\\' :: rest => do
    let (escape, rest) ← Escape.read? o rest
    let part ← Part.ofEscape? o escape
    some (part, rest)
  | '.' :: rest => (Part.dot? o).map (·, rest)
  | '^' :: rest => some (Part.start o, rest)
  | '$' :: rest => some (Part.stop o, rest)
  | c :: rest => (Part.ofChar? o c).map (·, rest)

/-- Reads alternatives up to a closing parenthesis or the end. Those before are in `done`, the parts
    of the last one in `parts`, both from last to first. -/
def alternatives : Nat → Options → List Part → List Part → List Char → Option (Part × List Char)
  | 0, _, _, _, _ => none
  | fuel + 1, o, done, parts, cs => do
    let cs := o.skip cs
    let sequence := Part.sequence parts.reverse
    match cs with
    | [] | ')' :: _ => some (.choice (sequence :: done).reverse, cs)
    | '|' :: rest => alternatives fuel o (sequence :: done) [] rest
    | '(' :: rest =>
      match ← opening? o rest with
      | (.options changed, rest) =>
        alternatives fuel changed done ({ pattern := .nothing, repeats := false } :: parts) rest
      | (.group inner room names, rest) =>
        let (part, rest) ← alternatives fuel inner [] [] rest
        match rest with
        | ')' :: rest => alternatives fuel o done (part.grouped room names :: parts) rest
        | _ => none
    | _ =>
      match ← repetition? o cs with
      | some (least, most, rest) =>
        match parts with
        | [] => none
        | part :: before =>
          let part ← part.times? least most
          alternatives fuel o done (part :: before) (dropMark rest)
      | none =>
        let (part, rest) ← single? o cs
        alternatives fuel o done (part :: parts) rest

end Grammar

def maxDepth : Nat := 250

def maxSize : Nat := 10 * 1024 * 1024

def ofText? (text : List Char) : Option Pattern :=
  match Grammar.alternatives (text.length + 1) {} [] [] text with
  | some (part, []) =>
    if part.depth ≤ maxDepth ∧ part.size + 256 ≤ maxSize ∧ part.names.Nodup then some part.pattern
    else none
  | _ => none

end PixelTables.Pattern
