import PixelTables.Binary.Numbers
import PixelTables.Image.PrefixCode

namespace PixelTables.Image.Deflate

open Binary (Bits)

/-- The numbers that a symbol may stand for: from a least one on, as many as bits that follow the
    symbol can tell apart. -/
structure Span where
  least : Nat
  extra : Nat

def Span.extended (s : Span) (bits : Bits) : Option (Nat × Bits) :=
  (bits.number s.extra).map fun (more, bits) => (s.least + more, bits)

def lengths : Array Span := #[
  ⟨3, 0⟩, ⟨4, 0⟩, ⟨5, 0⟩, ⟨6, 0⟩, ⟨7, 0⟩, ⟨8, 0⟩, ⟨9, 0⟩, ⟨10, 0⟩, ⟨11, 1⟩, ⟨13, 1⟩, ⟨15, 1⟩,
  ⟨17, 1⟩, ⟨19, 2⟩, ⟨23, 2⟩, ⟨27, 2⟩, ⟨31, 2⟩, ⟨35, 3⟩, ⟨43, 3⟩, ⟨51, 3⟩, ⟨59, 3⟩, ⟨67, 4⟩,
  ⟨83, 4⟩, ⟨99, 4⟩, ⟨115, 4⟩, ⟨131, 5⟩, ⟨163, 5⟩, ⟨195, 5⟩, ⟨227, 5⟩, ⟨258, 0⟩]

def distances : Array Span := #[
  ⟨1, 0⟩, ⟨2, 0⟩, ⟨3, 0⟩, ⟨4, 0⟩, ⟨5, 1⟩, ⟨7, 1⟩, ⟨9, 2⟩, ⟨13, 2⟩, ⟨17, 3⟩, ⟨25, 3⟩, ⟨33, 4⟩,
  ⟨49, 4⟩, ⟨65, 5⟩, ⟨97, 5⟩, ⟨129, 6⟩, ⟨193, 6⟩, ⟨257, 7⟩, ⟨385, 7⟩, ⟨513, 8⟩, ⟨769, 8⟩,
  ⟨1025, 9⟩, ⟨1537, 9⟩, ⟨2049, 10⟩, ⟨3073, 10⟩, ⟨4097, 11⟩, ⟨6145, 11⟩, ⟨8193, 12⟩, ⟨12289, 12⟩,
  ⟨16385, 13⟩, ⟨24577, 13⟩]

/-- Repeats bytes from `distance` before the end, one at a time, so that a copy may run into
    itself. -/
def repeatBytes (distance : Nat) : Nat → ByteArray → ByteArray
  | 0, out => out
  | count + 1, out => repeatBytes distance count (out.push (out[out.size - distance]?.getD 0))

structure Codes where
  literals : PrefixCode
  distances : PrefixCode

def endOfBlock : Nat := 256

/-- What a block gives: all that has come out so far, and the place behind it unless the data end
    before it does. -/
abbrev Reading := ByteArray × Option Bits

/-- Whether the word of a literal is read together with that of another one, of which a part is
    missing at the end of the data. Literals are read in pairs that take twelve bits at most, as if
    zeros followed the data, and nothing comes of half a pair. -/
def isHalfPair (codes : Codes) (word rest : Bits) : Bool :=
  rest.left < 12 &&
    (codes.literals.symbol { rest with bytes := rest.bytes ++ ⟨#[0, 0]⟩ }).any
      fun (symbol, ending) => symbol < endOfBlock && ending.place ≤ word.place + 12
        && rest.bytes.size * 8 < ending.place

/-- What a distance without a meaning leads to. It breaks a rule as soon as more than nine bits have
    come after the length, and is cut off by the end of the data otherwise. -/
def noDistance (bits : Bits) (out : ByteArray) : Option Reading :=
  if 9 < bits.left then none else some (out, none)

def symbols (codes : Codes) : Nat → Bits → ByteArray → Option Reading
  | 0, _, _ => none
  | fuel + 1, bits, out =>
    match codes.literals.symbol bits with
    | none => some (out, none)
    | some (symbol, rest) =>
      if symbol < endOfBlock then
        if isHalfPair codes bits rest then some (out, none)
        else symbols codes fuel rest (out.push symbol.toUInt8)
      else if symbol = endOfBlock then some (out, some rest)
      else match lengths[symbol - endOfBlock - 1]? with
        | none => none
        | some length => match length.extended rest with
          | none => some (out, none)
          | some (length, bits) => match codes.distances.symbol bits with
            | none => if codes.distances.isComplete then some (out, none) else noDistance bits out
            | some (symbol, rest) => match distances[symbol]? with
              | none => noDistance bits out
              | some distance => match distance.extended rest with
                | none => some (out, none)
                | some (distance, bits) =>
                  if distance ≤ out.size then
                    symbols codes fuel bits (repeatBytes distance length out)
                  else none

def fixedCodes : Codes where
  literals := .ofLengths (List.replicate 144 8 ++ List.replicate 112 9 ++ List.replicate 24 7
    ++ List.replicate 8 8)
  distances := .ofLengths (List.replicate 32 5)

def lengthOrder : List Nat := [16, 17, 18, 0, 8, 7, 9, 6, 10, 5, 11, 4, 12, 3, 13, 2, 14, 1, 15]

def threeBitNumbers : Nat → Bits → Option (List Nat × Bits)
  | 0, bits => some ([], bits)
  | count + 1, bits => do
    let (n, bits) ← bits.number 3
    let (rest, bits) ← threeBitNumbers count bits
    some (n :: rest, bits)

inductive Stop where
  | cut
  | broken

/-- Reads code lengths until there are `total`: each as it is, or as a repetition of the last one
    or of zero. A codeword is looked for in seven bits even if it is shorter. -/
def codeLengths (code : PrefixCode) (total : Nat) :
    Nat → Array Nat → Bits → Except Stop (List Nat × Bits)
  | 0, _, _ => .error .broken
  | fuel + 1, found, bits =>
    if found.size = total then .ok (found.toList, bits)
    else if total < found.size then .error .broken
    else if bits.left < 7 then .error .cut
    else match code.symbol bits with
      | none => .error .cut
      | some (symbol, bits) =>
        if symbol < 16 then codeLengths code total fuel (found.push symbol) bits
        else
          let repeated : Span :=
            if symbol = 16 then ⟨3, 2⟩ else if symbol = 17 then ⟨3, 3⟩ else ⟨11, 7⟩
          match repeated.extended bits with
          | none => .error .cut
          | some (count, bits) =>
            match if symbol = 16 then found.back? else some 0 with
            | none => .error .broken
            | some value => codeLengths code total fuel (found ++ Array.replicate count value) bits

def codesOf (lengths : List Nat) (literals : Nat) : Except Stop Codes :=
  let codes : Codes := ⟨.ofLengths (lengths.take literals), .ofLengths (lengths.drop literals)⟩
  if lengths[endOfBlock]?.getD 0 ≠ 0 ∧ codes.literals.isComplete
      ∧ (codes.distances.isComplete ∨ codes.distances.isSparse) then .ok codes
  else .error .broken

def ownCodes (bits : Bits) : Except Stop (Codes × Bits) :=
  match bits.number 14 with
  | none => .error .cut
  | some (counts, bits) =>
    let literals := counts % 32 + 257
    let distances := counts / 32 % 32 + 1
    if 286 < literals ∨ 30 < distances then .error .broken
    else match threeBitNumbers (counts / 1024 + 4) bits with
      | none => .error .cut
      | some (given, bits) => do
        let forLengths := PrefixCode.ofLengths
          ((List.range 19).map fun symbol => ((lengthOrder.zip given).lookup symbol).getD 0)
        if !forLengths.isComplete then .error .broken
        else
          let total := literals + distances
          let (lengths, bits) ← codeLengths forLengths total (total + 1) #[] bits
          let codes ← codesOf lengths literals
          .ok (codes, bits)

def ownBlock (bits : Bits) (out : ByteArray) : Option Reading :=
  match ownCodes bits with
  | .ok (codes, bits) => symbols codes (bits.left + 1) bits out
  | .error .cut => some (out, none)
  | .error .broken => none

def storedBlock (bits : Bits) (out : ByteArray) : Option Reading :=
  match bits.aligned.number 32 with
  | none => some (out, none)
  | some (counts, bits) =>
    let length := counts % 0x10000
    if length + counts / 0x10000 = 0xFFFF then
      match bits.wholeBytes length with
      | some (bytes, bits) => some (out ++ bytes, some bits)
      | none => some (out ++ bits.bytes.extract (bits.place / 8) bits.bytes.size, none)
    else none

/-- Reads blocks up to the one that is marked as the last, or up to the end of the data. Each takes
    three bits at least, and what it is is told as soon as there are ten. -/
def blocks : Nat → Bits → ByteArray → Option ByteArray
  | 0, _, _ => none
  | fuel + 1, bits, out =>
    if bits.left < 10 then some out
    else do
      let (head, bits) ← bits.number 3
      let (out, rest) ←
        match head / 2 with
        | 0 => storedBlock bits out
        | 1 => symbols fixedCodes (bits.left + 1) bits out
        | 2 => ownBlock bits out
        | _ => none
      match rest with
      | some bits => if head % 2 = 1 then some out else blocks fuel bits out
      | none => some out

/-- The two bytes before compressed data: the method, a window of at most 32 KiB, no dictionary,
    and a check that makes them a multiple of 31. -/
def isHeader (method flags : Nat) : Bool :=
  method % 16 = 8 && method / 16 ≤ 7 && (method * 256 + flags) % 31 = 0 && flags / 32 % 2 = 0

/-- Decompresses as far as the data go. They may end early, and what follows the last block, such as
    a checksum, is of no account; but they break no rule. -/
def decompress (bytes : ByteArray) : Option ByteArray := do
  let method ← bytes[0]?
  let flags ← bytes[1]?
  if isHeader method.toNat flags.toNat then
    let start : Bits := ⟨bytes, 16⟩
    blocks (start.left + 1) start .empty
  else none

end PixelTables.Image.Deflate
