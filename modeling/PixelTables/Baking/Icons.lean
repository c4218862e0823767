import PixelTables.Icon
import PixelTables.Icon.Source
import PixelTables.Journal
import PixelTables.Profile.Basic

namespace PixelTables

def Status.quoted : Status → String
  | .rendered => "Rendered"
  | .substituted fallback => "Substituted \x7b fallback: " ++ Text.quotedPath fallback.text ++ " \x7d"
  | .degraded reason => "Degraded \x7b reason: " ++ Text.quotedText reason ++ " \x7d"

namespace IconProfile

def emptyTable (p : IconProfile) : Table :=
  let table : Table :=
    { name := p.name
      stem := p.stem
      cellWidth := p.cellSize.toNat
      cellHeight := p.cellSize.toNat
      format := .hex32
      shape := p.shape }
  table.define "TRANSPARENT" ("0x" ++ Text.hexUpper 8 transparentWord.toNat ++ "u")

def ownPath (dir : Path) (e : IconEntry) : Path := dir.join e.file

def fallbackPath (p : IconProfile) (dir : Path) : Option Path := p.fallback.map dir.join

def candidates (p : IconProfile) (dir : Path) (e : IconEntry) : List Path :=
  ownPath dir e :: (p.fallbackPath dir).toList

def picture (p : IconProfile) (d : Disk) (e : IconEntry) (source : IconSource)
    (imaging : Icon.Imaging := .standard) : Except Failure (Raster Rgba) :=
  match source with
  | .own path | .fallback path => do
    let source ← Icon.load d path imaging.decode
    .ok (Icon.rasterize source p.cellSize.toNat (p.contentSizeOf e).toNat imaging.resizer)
  | .missing => .ok (.transparent p.cellSize.toNat p.cellSize.toNat)

def status (dir : Path) (e : IconEntry) : IconSource → Status
  | .own _ => .rendered
  | .fallback path => .substituted path
  | .missing => .degraded s!"missing {(ownPath dir e).text}"

def warning (p : IconProfile) (dir : Path) (e : IconEntry) : IconSource → Journal
  | .own _ => []
  | .fallback path =>
    [.substitute s!"{p.index e}: '{(ownPath dir e).text}' not found, using '{path.text}'"]
  | .missing =>
    [.substitute (s!"{p.index e}: '{(ownPath dir e).text}' not found and no fallback available; "
      ++ "emitting a transparent cell")]

def bakeEntry (p : IconProfile) (d : Disk) (dir : Path) (e : IconEntry)
    (imaging : Icon.Imaging := .standard) : Except Failure TableEntry × Journal :=
  let source := Icon.source d (ownPath dir e) (p.fallbackPath dir)
  let warned := p.warning dir e source
  match p.picture d e source imaging with
  | .error failure => (.error failure, warned)
  | .ok picture =>
    let status := status dir e source
    (.ok { id := p.index e, label := e.file.text, cell := p.encoding.encode picture, status },
      warned ++ [.detail s!"{p.index e}: baked from {status.quoted}"])

def bakeEntries (p : IconProfile) (d : Disk) (dir : Path) (entries : List IconEntry) (table : Table)
    (imaging : Icon.Imaging := .standard) : Except Failure Table × Journal :=
  match entries with
  | [] => (.ok table, [])
  | e :: rest =>
    let (entry, noted) := p.bakeEntry d dir e imaging
    match entry with
    | .error failure => (.error failure, noted)
    | .ok entry => match table.push entry with
      | (_, .error failure) => (.error failure, noted)
      | (table, .ok _) =>
        let (result, more) := p.bakeEntries d dir rest table imaging
        (result, noted ++ more)

def bake (p : IconProfile) (d : Disk) (dir : Path) (imaging : Icon.Imaging := .standard) :
    Except Failure Table × Journal :=
  p.bakeEntries d dir p.entries p.emptyTable imaging

end IconProfile

end PixelTables
