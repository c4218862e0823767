import PixelTables.Font.Sheet

namespace PixelTables.Font

open Binary (i16?)

inductive GlyphKind where
  | simple (contours : Nat)
  | composed
  deriving DecidableEq, Repr

def GlyphKind.ofBytes? (bytes : ByteArray) : Option GlyphKind := do
  let contours ← i16? bytes 0
  if 0 ≤ contours then
    if 12 ≤ bytes.size then some (.simple contours.toNat) else none
  else if 10 ≤ bytes.size then some .composed
  else none

def maxDepth : Nat := 33

namespace GlyphTables

def pointCount? (t : GlyphTables) : Nat → ByteArray → Option Nat
  | 0, _ => none
  | depth + 1, bytes => do
    match ← GlyphKind.ofBytes? bytes with
    | .simple contours => some (SimpleGlyph.pointCount (SimpleGlyph.contourEnds bytes contours))
    | .composed =>
      (Assembly.read bytes).glyphs.foldlM (fun count glyph => do
        let part ← t.bytesOf? glyph
        let more ← if part.size = 0 then some 0 else t.pointCount? depth part
        some (count + more)) 0

def load (t : GlyphTables) (factor : Option Int) : Nat → Nat → Sheet → Except Flaw Sheet
  | 0, _, _ => .error .damaged
  | depth + 1, glyph, s => do
    let bytes ← sound (t.bytesOf? glyph)
    let frame := fun left => (t.frame glyph left).map (Point.map (scaled factor))
    if bytes.size = 0 then .ok { s with frame := frame 0 }
    else do
      let left ← sound (i16? bytes 2)
      match ← sound (GlyphKind.ofBytes? bytes) with
      | .simple contours =>
        let outline ← SimpleGlyph.read bytes contours
        .ok (s.add (outline.map (Point.map (scaled factor))) (frame left))
      | .composed =>
        Component.addAll factor (t.load factor depth) s.used (Assembly.read bytes).components
          { s with frame := frame left }

def sheetOf (t : GlyphTables) (factor : Option Int) (glyph : Nat) : Except Flaw Sheet := do
  let bytes ← sound (t.bytesOf? glyph)
  let count ← if bytes.size = 0 then .ok 0 else sound (t.pointCount? maxDepth bytes)
  t.load factor maxDepth glyph (Sheet.blank (count + 4))

/-- The outline of a glyph in sixty-fourths of a pixel from where the pen starts. Without a factor,
    units are whole pixels. The points are counted before any of them is loaded, which shows
    whether all components are there. -/
def outline (t : GlyphTables) (factor : Option Int) (glyph : Nat) : Except Flaw Outline := do
  let s ← t.sheetOf factor glyph
  let o := s.outline.map (Point.move (-s.frame.start.x) 0)
  if o.isOrdered then .ok (if factor.isSome then o else o.map (Point.map (· * 64)))
  else .error .damaged

end GlyphTables

end PixelTables.Font
