import PixelTables.Binary.Bits

namespace PixelTables.Image

open Binary (Bits)

/-- A code in which shorter codewords precede longer ones and words of one length are numbered in
    the order of their symbols, so that the lengths alone determine it. `counts` holds how many
    words have one bit, two bits and so on. -/
structure PrefixCode where
  counts : List Nat
  symbols : Array Nat

namespace PrefixCode

def maxLength : Nat := 15

/-- What is left of the code space after words of the lengths counted, in units of the last
    length; none if there are too many words. -/
def room : Nat → List Nat → Option Nat
  | free, [] => some free
  | free, count :: rest => if count ≤ 2 * free then room (2 * free - count) rest else none

def ofLengths (lengths : List Nat) : PrefixCode where
  counts := (List.range' 1 maxLength).map lengths.count
  symbols := ((List.range' 1 maxLength).flatMap fun length =>
    lengths.zipIdx.filterMap fun (own, symbol) =>
      if own = length then some symbol else none).toArray

def isComplete (code : PrefixCode) : Bool := room 1 code.counts = some 0

/-- A code that may be met among distances: complete, or at most one word, of a single bit. -/
def isSparse (code : PrefixCode) : Bool :=
  code.symbols.isEmpty || (code.symbols.size = 1 && code.counts.head? = some 1)

/-- Reads one more bit at a time. Words with the bits so far as their length start at `first`,
    and `before` symbols have shorter ones. -/
def symbolFrom (symbols : Array Nat) : List Nat → Nat → Nat → Nat → Bits → Option (Nat × Bits)
  | [], _, _, _, _ => none
  | count :: longer, word, first, before, bits => do
    let (bit, bits) ← bits.next
    let word := 2 * word + bit
    let first := 2 * first
    if word < first + count then
      let symbol ← symbols[before + (word - first)]?
      some (symbol, bits)
    else symbolFrom symbols longer word (first + count) (before + count) bits

def symbol (code : PrefixCode) (bits : Bits) : Option (Nat × Bits) :=
  symbolFrom code.symbols code.counts 0 0 0 bits

end PrefixCode

end PixelTables.Image
