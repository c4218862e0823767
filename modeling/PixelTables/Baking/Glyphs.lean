import PixelTables.Glyph.Basic
import PixelTables.Journal
import PixelTables.Profile.Basic

namespace PixelTables

namespace GlyphProfile

variable {σ : Type}

/-- The table before its first entry. It declares the code point of its first character, so that
    an index is a code point less that constant. -/
def emptyTable (p : GlyphProfile) : Table :=
  let table : Table :=
    { name := p.name
      stem := p.stem
      cellWidth := p.cellWidth.toNat
      cellHeight := p.cellHeight.toNat
      format := .byte
      shape := p.shape }
  table.define "FIRST" ("0x" ++ Text.hexUpper 2 p.firstChar.toNat)

def entry (p : GlyphProfile) (ch : Char) (picture : Except GlyphError (Raster UInt8)) :
    TableEntry where
  id := p.index ch
  label := charLabel ch
  cell := match picture with
    | .ok coverage => p.encoding.encode coverage
    | .error _ => p.encoding.encode p.geometry.blank
  status := match picture with
    | .ok _ => .rendered
    | .error why => .degraded why.message

def notes (p : GlyphProfile) (ch : Char) (picture : Except GlyphError (Raster UInt8)) : Journal :=
  let warning := match picture with
    | .ok _ => []
    | .error why => [Note.substitute s!"{p.index ch}: {why.message}; emitting a blank cell"]
  warning ++ [Note.detail s!"{p.index ch}: baked {Text.quotedChar ch}"]

/-- Bakes characters in order, each after the state that the one before left. A failure concerns
    the table, never a character. -/
def bakeChars (p : GlyphProfile) (source : GlyphSource σ) :
    List Char → Table → σ → Except Failure Table × Journal × σ
  | [], table, s => (.ok table, [], s)
  | ch :: rest, table, s =>
    let (picture, s) := p.geometry.rasterize source ch s
    let noted := p.notes ch picture
    match table.push (p.entry ch picture) with
    | (_, .error failure) => (.error failure, noted, s)
    | (table, .ok _) =>
      let (result, more, s) := p.bakeChars source rest table s
      (result, noted ++ more, s)

def bake (p : GlyphProfile) (source : GlyphSource σ) (s : σ) :
    Except Failure Table × Journal × σ :=
  p.bakeChars source p.chars p.emptyTable s

end GlyphProfile

end PixelTables
