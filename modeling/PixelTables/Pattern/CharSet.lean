namespace PixelTables.Pattern

inductive CharSet where
  | span (first last : Nat)
  | union (a b : CharSet)
  | inter (a b : CharSet)
  | diff (a b : CharSet)
  | symmDiff (a b : CharSet)
  | compl (a : CharSet)
  deriving DecidableEq, Repr

namespace CharSet

def contains : CharSet → Nat → Bool
  | .span first last, n => first ≤ n && n ≤ last
  | .union a b, n => a.contains n || b.contains n
  | .inter a b, n => a.contains n && b.contains n
  | .diff a b, n => a.contains n && !b.contains n
  | .symmDiff a b, n => a.contains n != b.contains n
  | .compl a, n => !a.contains n

def isShort : CharSet → Bool
  | .span _ last => last < 0x80
  | .union a b | .symmDiff a b => a.isShort && b.isShort
  | .inter a b => a.isShort || b.isShort
  | .diff a _ => a.isShort
  | .compl _ => false

def empty : CharSet := .span 1 0

def all : CharSet := .span 0 0x10FFFF

def single (c : Char) : CharSet := .span c.toNat c.toNat

def caseless (first last : Nat) : CharSet :=
  let small := .span (max first 0x41 + 0x20) (min last 0x5A + 0x20)
  let large := .span (max first 0x61 - 0x20) (min last 0x7A - 0x20)
  .union (.span first last) (.union small large)

def named? (name : String) : Option (List (Nat × Nat)) :=
  let digits := (0x30, 0x39)
  let large := (0x41, 0x5A)
  let small := (0x61, 0x7A)
  match name with
  | "alnum" => some [digits, large, small]
  | "alpha" => some [large, small]
  | "ascii" => some [(0x00, 0x7F)]
  | "blank" => some [(0x09, 0x09), (0x20, 0x20)]
  | "cntrl" => some [(0x00, 0x1F), (0x7F, 0x7F)]
  | "digit" => some [digits]
  | "graph" => some [(0x21, 0x7E)]
  | "lower" => some [small]
  | "print" => some [(0x20, 0x7E)]
  | "punct" => some [(0x21, 0x2F), (0x3A, 0x40), (0x5B, 0x60), (0x7B, 0x7E)]
  | "space" => some [(0x09, 0x0D), (0x20, 0x20)]
  | "upper" => some [large]
  | "word" => some [digits, large, (0x5F, 0x5F), small]
  | "xdigit" => some [digits, (0x41, 0x46), (0x61, 0x66)]
  | _ => none

def unions (sets : List CharSet) : CharSet :=
  match sets with
  | [] => empty
  | first :: rest => rest.foldl .union first

end CharSet

end PixelTables.Pattern
