import PixelTables.Font.Fixed
import PixelTables.Font.Outline

namespace PixelTables.Font

open Binary (u16? i16? i8?)

inductive Placement where
  | moved (x y : Int)
  | joined (whole part : Nat)
  deriving DecidableEq, Repr

structure Stretch where
  xx : Int
  yx : Int
  xy : Int
  yy : Int
  deriving DecidableEq, Repr

namespace Stretch

def apply (s : Stretch) (p : Point) : Point :=
  { p with x := scaleBy s.xx p.x + scaleBy s.xy p.y, y := scaleBy s.yx p.x + scaleBy s.yy p.y }

def steps (s : Stretch) (x y : Int) : Int × Int :=
  (scaleBy (arrowLength s.xx s.xy) x, scaleBy (arrowLength s.yy s.yx) y)

end Stretch

structure Component where
  glyph : Nat
  placement : Placement
  stretch : Option Stretch
  roundsY : Bool
  scalesOffset : Bool
  givesMetrics : Bool
  deriving DecidableEq, Repr

/-- The components of a glyph. If the bytes end within the last one, all that is known of it is its
    glyph. -/
structure Assembly where
  components : List Component
  cutOff : Option Nat
  deriving DecidableEq, Repr

namespace Component

def factor? (bytes : ByteArray) (place : Nat) : Option Int := (i16? bytes place).map (· * 4)

def stretch? (bytes : ByteArray) (flags place : Nat) : Option (Option Stretch × Nat) :=
  if hasBit flags 0x8 then do
    let s ← factor? bytes place
    some (some ⟨s, 0, 0, s⟩, place + 2)
  else if hasBit flags 0x40 then do
    let xx ← factor? bytes place
    let yy ← factor? bytes (place + 2)
    some (some ⟨xx, 0, 0, yy⟩, place + 4)
  else if hasBit flags 0x80 then do
    let xx ← factor? bytes place
    let yx ← factor? bytes (place + 2)
    let xy ← factor? bytes (place + 4)
    let yy ← factor? bytes (place + 6)
    some (some ⟨xx, yx, xy, yy⟩, place + 8)
  else some (none, place)

def placement? (bytes : ByteArray) (flags place : Nat) : Option (Placement × Nat) :=
  match hasBit flags 2, hasBit flags 1 with
  | true, true => do
    let x ← i16? bytes place
    let y ← i16? bytes (place + 2)
    some (.moved x y, place + 4)
  | true, false => do
    let x ← i8? bytes place
    let y ← i8? bytes (place + 1)
    some (.moved x y, place + 2)
  | false, true => do
    let a ← u16? bytes place
    let b ← u16? bytes (place + 2)
    some (.joined a b, place + 4)
  | false, false => do
    let a ← bytes[place]?
    let b ← bytes[place + 1]?
    some (.joined a.toNat b.toNat, place + 2)

def read? (bytes : ByteArray) (flags glyph place : Nat) : Option (Component × Nat) := do
  let (placement, place) ← placement? bytes flags place
  let (stretch, place) ← stretch? bytes flags place
  let component : Component :=
    { glyph, placement, stretch
      roundsY := hasBit flags 0x4
      scalesOffset := hasBit flags 0x800 && !hasBit flags 0x1000
      givesMetrics := hasBit flags 0x200 }
  some (component, place)

def stretched (c : Component) (p : Point) : Point :=
  match c.stretch with
  | none => p
  | some s => s.apply p

end Component

namespace Assembly

def empty : Assembly := ⟨[], none⟩

def readFrom (bytes : ByteArray) : Nat → Nat → Assembly
  | 0, _ => empty
  | fuel + 1, place =>
    match u16? bytes place, u16? bytes (place + 2) with
    | some flags, some glyph =>
      match Component.read? bytes flags glyph (place + 4) with
      | none => ⟨[], some glyph⟩
      | some (component, next) =>
        let rest := if hasBit flags 0x20 then readFrom bytes fuel next else empty
        { rest with components := component :: rest.components }
    | _, _ => empty

def read (bytes : ByteArray) : Assembly := readFrom bytes bytes.size 10

def glyphs (a : Assembly) : List Nat := a.components.map (·.glyph) ++ a.cutOff.toList

end Assembly

end PixelTables.Font
