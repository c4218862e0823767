import PixelTables.Pattern.Escape

namespace PixelTables.Pattern

structure SetPart where
  set : CharSet
  depth : Nat
  deriving DecidableEq, Repr

namespace Bracket

inductive Operator where
  | inter
  | diff
  | symmDiff
  deriving DecidableEq, Repr

def Operator.apply : Operator → CharSet → CharSet → CharSet
  | .inter => .inter
  | .diff => .diff
  | .symmDiff => .symmDiff

def operator? : List Char → Option (Operator × List Char)
  | '&' :: '&' :: rest => some (.inter, rest)
  | '-' :: '-' :: rest => some (.diff, rest)
  | '~' :: '~' :: rest => some (.symmDiff, rest)
  | _ => none

/-- Spans of codes as a set. The case of wide characters is not known, and without them there are
    seven bits only. -/
def ofSpans? (o : Options) (spans : List (Nat × Nat)) : Option SetPart :=
  if o.unicode && o.ignoresCase then none
  else if !o.unicode && spans.any fun (_, last) => 0x80 ≤ last then none
  else
    let sets := spans.map fun (first, last) =>
      if o.ignoresCase then CharSet.caseless first last else .span first last
    some ⟨.unions sets, 0⟩

def signed? (o : Options) (negated : Bool) (s : SetPart) : Option SetPart :=
  if !negated then some s
  else if o.unicode then some { s with set := .compl s.set }
  else none

def ofChar? (o : Options) (c : Char) : Option SetPart := ofSpans? o [(c.toNat, c.toNat)]

def union (items : List SetPart) : SetPart :=
  match items with
  | [] => ⟨.empty, 0⟩
  | [item] => item
  | items => ⟨.unions (items.map (·.set)), 1 + (items.map (·.depth)).foldl max 0⟩

def combine (left : Option (Operator × SetPart)) (right : SetPart) : SetPart :=
  match left with
  | none => right
  | some (op, left) => ⟨op.apply left.set right.set, 1 + max left.depth right.depth⟩

def named? : List Char → Option (Bool × List (Nat × Nat) × List Char)
  | '[' :: ':' :: rest =>
    let (negated, rest) := match rest with
      | '^' :: rest => (true, rest)
      | _ => (false, rest)
    match rest.dropWhile (· ≠ ':') with
    | ':' :: ']' :: below =>
      (CharSet.named? (String.ofList (rest.takeWhile (· ≠ ':')))).map fun spans =>
        (negated, spans, below)
    | _ => none
  | _ => none

def signs (o : Options) : Nat → List Char → Nat × List Char
  | 0, cs => (0, cs)
  | fuel + 1, cs =>
    match cs with
    | '-' :: rest =>
      let (count, rest) := signs o fuel (o.skip rest)
      (count + 1, rest)
    | _ => (0, cs)

def opening? (o : Options) (cs : List Char) : Option (Bool × List SetPart × List Char) := do
  let cs := o.skip cs
  let (negated, cs) := match cs with
    | '^' :: rest => (true, o.skip rest)
    | _ => (false, cs)
  let (count, cs) := signs o cs.length cs
  if count ≠ 0 then
    let sign ← ofChar? o '-'
    some (negated, List.replicate count sign, cs)
  else match cs with
    | ']' :: rest =>
      let bracket ← ofChar? o ']'
      some (negated, [bracket], o.skip rest)
    | _ => some (negated, [], cs)

def item? (o : Options) : List Char → Option (Escape × List Char)
  | [] => none
  | '\\' :: rest => Escape.read? o rest
  | c :: rest => some (.char c, rest)

/-- Whether a range follows. A minus sign in front of another, or of the end, stands for itself. -/
def rangeFollows (o : Options) (cs : List Char) : Option (List Char) :=
  match cs with
  | '-' :: rest => match o.skip rest with
    | ']' :: _ => none
    | '-' :: _ => none
    | rest => some rest
  | _ => none

def range? (o : Options) (cs : List Char) : Option (SetPart × List Char) := do
  let (first, rest) ← item? o cs
  let rest := o.skip rest
  match rangeFollows o rest, first with
  | some rest, .char first => do
    let (last, rest) ← item? o rest
    match last with
    | .char last =>
      let part ← if first.toNat ≤ last.toNat then ofSpans? o [(first.toNat, last.toNat)] else none
      some (part, rest)
    | _ => none
  | some _, _ => none
  | none, .char c => (ofChar? o c).map (·, rest)
  | none, .set spans => (ofSpans? o spans).map (·, rest)
  | none, .look _ => none

def body (o : Options) : Nat → Option (Operator × SetPart) → List SetPart → List Char →
    Option (SetPart × List Char)
  | 0, _, _, _ => none
  | fuel + 1, left, items, cs => do
    let cs := o.skip cs
    match cs with
    | [] => none
    | ']' :: rest => some (combine left (union items.reverse), rest)
    | c :: rest =>
      match operator? cs with
      | some (op, rest) => body o fuel (some (op, combine left (union items.reverse))) [] rest
      | none =>
        if c = '[' then
          match named? cs with
          | some (negated, spans, rest) =>
            let part ← (ofSpans? o spans).bind (signed? o negated)
            body o fuel left (part :: items) rest
          | none =>
            let (negated, first, rest) ← opening? o rest
            let (part, rest) ← body o fuel none first.reverse rest
            let part ← signed? o negated part
            body o fuel left ({ part with depth := part.depth + 1 } :: items) rest
        else
          let (part, rest) ← range? o cs
          body o fuel left (part :: items) rest

def read? (o : Options) (cs : List Char) : Option (SetPart × List Char) := do
  let (negated, first, rest) ← opening? o cs
  let (part, rest) ← body o (rest.length + 1) none first.reverse rest
  let part ← signed? o negated part
  some ({ part with depth := part.depth + 1 }, rest)

end Bracket

end PixelTables.Pattern
