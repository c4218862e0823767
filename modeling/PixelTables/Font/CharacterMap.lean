import PixelTables.Font.Tables

namespace PixelTables.Font

open Binary (u16? u32?)

inductive MapKind where
  | unicode
  | symbol
  | other
  deriving DecidableEq, Repr

def MapKind.ofCodes (platform encoding : Nat) : MapKind :=
  match platform, encoding with
  | 3, 0 => .symbol
  | 3, 1 => .unicode
  | 3, 10 => .unicode
  | 0, _ => .unicode
  | 2, _ => .unicode
  | _, _ => .other

structure CharacterMap where
  kind : MapKind
  format : Nat
  place : Nat
  deriving DecidableEq, Repr

namespace CharacterMap

def search (range : Nat → Option (Nat × Nat)) (code : Nat) : Nat → Nat → Nat → Option Nat
  | 0, _, _ => none
  | fuel + 1, low, high =>
    if low < high then do
      let middle := (low + high) / 2
      let (first, last) ← range middle
      if code < first then search range code fuel low middle
      else if last < code then search range code fuel (middle + 1) high
      else some middle
    else none

/-- Segments of 16-bit codes: a glyph is a code plus a difference, or is listed. All segments have to
    be there. -/
def segmented (bytes : ByteArray) (place code : Nat) : Option Nat := do
  let doubled ← u16? bytes (place + 6)
  let count := doubled / 2
  let ends := place + 14
  let starts := ends + doubled + 2
  let deltas := starts + doubled
  let ranges := deltas + doubled
  if 65535 ≤ code ∨ bytes.size < ranges + doubled then none
  else
    let range := fun i => do
      let first ← u16? bytes (starts + 2 * i)
      let last ← u16? bytes (ends + 2 * i)
      some (first, last)
    let i ← search range code (count + 1) 0 count
    let first ← u16? bytes (starts + 2 * i)
    let delta ← u16? bytes (deltas + 2 * i)
    let away ← u16? bytes (ranges + 2 * i)
    if away = 0 then some ((code + delta) % 65536)
    else
      let listed := (u16? bytes (ranges + 2 * i + away + 2 * (code - first))).getD 0
      some (if listed = 0 then 0 else (listed + delta) % 65536)

/-- Groups of codes; glyphs count up within a group. All groups have to be there. -/
def grouped (bytes : ByteArray) (place code : Nat) : Option Nat := do
  let count ← u32? bytes (place + 12)
  let group := fun i => place + 16 + 12 * i
  let range := fun i => do
    let first ← u32? bytes (group i)
    let last ← u32? bytes (group i + 4)
    some (first, last)
  let i ← if bytes.size < group count then none else search range code (count + 1) 0 count
  let first ← u32? bytes (group i)
  let glyph ← u32? bytes (group i + 8)
  some ((glyph + (code - first)) % 65536)

def lookup (m : CharacterMap) (bytes : ByteArray) (code : Nat) : Nat :=
  (match m.format with
    | 4 => segmented bytes m.place code
    | 12 => grouped bytes m.place code
    | _ => none).getD 0

def symbolOffset : Nat := 0xF000

def glyph (m : CharacterMap) (bytes : ByteArray) (code : Nat) : Nat :=
  let direct := m.lookup bytes code
  if direct = 0 ∧ m.kind = .symbol ∧ code ≤ 0xFF then m.lookup bytes (code + symbolOffset)
  else direct

def isUsable (m : CharacterMap) : Bool := m.kind ≠ .other && (m.format = 4 || m.format = 12)

def ofRecord? (bytes : ByteArray) (base index : Nat) : Option CharacterMap := do
  let record := base + 4 + 8 * index
  let platform ← u16? bytes record
  let encoding ← u16? bytes (record + 2)
  let place ← u32? bytes (record + 4)
  let format ← u16? bytes (base + place)
  some ⟨MapKind.ofCodes platform encoding, format % 256, base + place⟩

/-- The usable maps of so many records from `index` on. None is looked at behind one of symbols, and
    one that cannot be read spoils all. -/
def usable? (bytes : ByteArray) (base : Nat) : Nat → Nat → Option (List CharacterMap)
  | 0, _ => some []
  | left + 1, index => do
    let m ← ofRecord? bytes base index
    if m.isUsable then
      if m.kind = .symbol then some [m]
      else
        let rest ← usable? bytes base left (index + 1)
        some (m :: rest)
    else usable? bytes base left (index + 1)

/-- The best of some maps: one of symbols, or else the last of format 12, or else the first. -/
def best? (maps : List CharacterMap) : Option CharacterMap :=
  (maps.find? (·.kind = .symbol)).or ((maps.reverse.find? (·.format = 12)).or maps.head?)

end CharacterMap

def characterMap? (f : Font) : Option CharacterMap := do
  let base ← f.start? "cmap"
  let count ← u16? f.bytes (base + 2)
  let maps ← CharacterMap.usable? f.bytes base count 0
  CharacterMap.best? maps

def glyphOf (f : Font) (ch : Char) : Nat :=
  match f.characterMap? with
  | some m => m.glyph f.bytes ch.toNat
  | none => 0

end PixelTables.Font
