import PixelTables.Encoding
import PixelTables.Glyph.Geometry
import PixelTables.Table
import PixelTables.Text.Ascii
import PixelTables.Text.Quoted

namespace PixelTables

/-- The name of a character in a comment. What would end or continue a line comment is spelled
    out, and controls are given by their code point. -/
def charLabel (c : Char) : String :=
  if c = ' ' then "Space"
  else if c = '\\' then "Backslash"
  else if c = '*' then "Asterisk"
  else if c = '/' then "Slash"
  else if Text.isControl c then "U+" ++ Text.hexUpper 4 c.toNat
  else c.toString

inductive AssetKind where
  | glyph (ch : Char) (encoding : GlyphEncoding)
  | icon (path : Path) (contentSize : UInt32) (encoding : IconEncoding)
  deriving DecidableEq, Repr

structure Descriptor where
  id : String
  label : String
  cellWidth : UInt32
  cellHeight : UInt32
  kind : AssetKind
  deriving DecidableEq, Repr

structure GlyphProfile where
  name : String
  stem : String
  font : Path
  fontSize : Float32
  cellWidth : UInt32
  cellHeight : UInt32
  padding : UInt32
  firstChar : Char
  count : UInt32
  encoding : GlyphEncoding
  shape : Shape
  declarations : Path
  data : Path

def defaultPadding : UInt32 := 4

namespace GlyphProfile

def standard : GlyphProfile where
  name := "character"
  stem := "CHARACTER"
  font := ⟨"fonts/font.ttf"⟩
  fontSize := 12
  cellWidth := 10
  cellHeight := 18
  padding := defaultPadding
  firstChar := ' '
  count := 95
  encoding := .intensity
  shape := { countName := "NUMBER", countOffset := 1 }
  declarations := ⟨"include/character.h"⟩
  data := ⟨"kernel/character.c"⟩

def codes (p : GlyphProfile) : List Nat :=
  List.range' p.firstChar.toNat (min p.count.toNat (0x110000 - p.firstChar.toNat))

/-- The characters of the table in index order. Code points without a character are skipped. -/
def chars (p : GlyphProfile) : List Char := p.codes.filterMap Text.charOfCode?

def geometry (p : GlyphProfile) : Geometry :=
  ⟨p.cellWidth, p.cellHeight, p.fontSize, p.padding⟩

def index (p : GlyphProfile) (ch : Char) : String := p.stem ++ "_U" ++ Text.hexUpper 4 ch.toNat

def descriptors (p : GlyphProfile) : List Descriptor :=
  p.chars.map fun ch =>
    { id := p.index ch
      label := charLabel ch
      cellWidth := p.cellWidth
      cellHeight := p.cellHeight
      kind := .glyph ch p.encoding }

end GlyphProfile

structure IconEntry where
  id : String
  file : Path
  contentSize : Option UInt32 := none
  deriving DecidableEq, Repr, Inhabited

structure IconProfile where
  name : String
  stem : String
  sourceDir : Path
  fallback : Option Path
  cellSize : UInt32
  contentSize : UInt32
  alphaCutoff : UInt8
  entries : List IconEntry
  shape : Shape
  declarations : Path
  data : Path
  deriving DecidableEq, Repr, Inhabited

namespace IconProfile

def appIcons : IconProfile where
  name := "app_icons_data"
  stem := "APP_ICON"
  sourceDir := ⟨"app_icons"⟩
  fallback := some ⟨"logo.png"⟩
  cellSize := 48
  contentSize := 32
  alphaCutoff := 128
  entries := [
    ⟨"TERMINAL", ⟨"terminal.png"⟩, none⟩,
    ⟨"EDITOR", ⟨"editor.png"⟩, none⟩,
    ⟨"EXPLORER", ⟨"explorer.png"⟩, none⟩,
    ⟨"FLOPPYBIRD", ⟨"floppybird.png"⟩, none⟩]
  shape := .flat "COUNT"
  declarations := ⟨"include/app_icons.h"⟩
  data := ⟨"kernel/app_icons_data.c"⟩

def windowIcons : IconProfile where
  name := "icons_data"
  stem := "ICON"
  sourceDir := ⟨"icon"⟩
  fallback := some ⟨"logo.png"⟩
  cellSize := 30
  contentSize := 30
  alphaCutoff := 150
  entries := [
    ⟨"CLOSE", ⟨"close.png"⟩, some 20⟩,
    ⟨"MINIMIZE", ⟨"minus.png"⟩, some 20⟩,
    ⟨"WINDOWS", ⟨"logo.png"⟩, none⟩,
    ⟨"FOLDER", ⟨"logo.png"⟩, none⟩,
    ⟨"CHESS", ⟨"logo.png"⟩, none⟩]
  shape := .flat "NUMBER"
  declarations := ⟨"include/icons.h"⟩
  data := ⟨"kernel/icons_data.c"⟩

def encoding (p : IconProfile) : IconEncoding := ⟨p.alphaCutoff⟩

def index (p : IconProfile) (e : IconEntry) : String := p.stem ++ "_" ++ e.id

def contentSizeOf (p : IconProfile) (e : IconEntry) : UInt32 := e.contentSize.getD p.contentSize

def descriptor (p : IconProfile) (dir : Path) (e : IconEntry) : Descriptor where
  id := p.index e
  label := e.file.text
  cellWidth := p.cellSize
  cellHeight := p.cellSize
  kind := .icon (dir.join e.file) (p.contentSizeOf e) p.encoding

def descriptors (p : IconProfile) (dir : Path) : List Descriptor := p.entries.map (p.descriptor dir)

end IconProfile

structure Config where
  root : Path := ⟨"."⟩
  glyphs : List GlyphProfile := []
  icons : List IconProfile := []

namespace Config

def standard : Config where
  glyphs := [.standard]
  icons := [.appIcons, .windowIcons]

def resolve (c : Config) (p : Path) : Path := c.root.join p

def names (c : Config) : List (String × String) :=
  c.glyphs.map (fun p => (p.name, p.stem)) ++ c.icons.map (fun p => (p.name, p.stem))

def outputs (c : Config) : List Path :=
  c.glyphs.flatMap (fun p => [p.declarations, p.data])
    ++ c.icons.flatMap (fun p => [p.declarations, p.data])

end Config

end PixelTables
