import PixelTables.Baking.Glyphs
import PixelTables.Baking.Icons
import PixelTables.Font.Render
import PixelTables.Profile.Validation
import PixelTables.Publishing

namespace PixelTables

structure Summary where
  name : String
  entries : Nat
  substituted : Nat
  degraded : Nat
  written : List Path
  deriving DecidableEq, Repr

namespace Summary

def ofTable (t : Table) (artifacts : List Artifact) : Summary where
  name := t.name
  entries := t.size
  substituted := t.substituted.length
  degraded := t.degraded.length
  written := artifacts.map (·.path)

def note (s : Summary) : Note :=
  .progress (s!"Baked `{s.name}`: {s.entries} entries, {s.substituted} substituted, "
    ++ s!"{s.degraded} blank")

end Summary

inductive Outcome where
  | completed (tables : List Summary)
  | notReady (created : List Path)
  deriving DecidableEq, Repr

/-- How fonts are loaded and rendered, and pictures are drawn. Loading looks at the disk and may keep
    a memory of its own; every font loaded has a state, which rendering changes. The program ends
    at the first character that breaks down in its turn, of a table baked from the state that the
    font was loaded with. -/
structure Loader (τ σ : Type) where
  load : Disk → Path → τ → Except Failure σ × τ
  render : GlyphSource σ
  breaksDown : σ → Char → Float32 → Bool := fun _ _ _ => false
  imaging : Icon.Imaging := .standard

def Loader.files : Loader Unit Font where
  load d p t := (Font.load d p, t)
  render := Font.source
  breaksDown := Font.breaksDown

structure RunResult (τ : Type) where
  disk : Disk
  journal : Journal
  loader : τ
  outcome : Except Failure Outcome

structure Product where
  table : Table
  artifacts : List Artifact

def Product.summary (p : Product) : Summary := .ofTable p.table p.artifacts

namespace Config

variable {τ σ : Type}

def created (dir : Path) : Note :=
  .progress s!"Created '{dir.text}'; add the icon images and run again"

def makeMissing : List Path → Disk → Disk × Journal × Except Failure (List Path)
  | [], d => (d, [], .ok [])
  | dir :: rest, d =>
    if d.isDirectory dir then makeMissing rest d
    else match d.makeDirectories dir with
      | (d, .error _) => (d, [], .error (.write dir))
      | (d, .ok ()) =>
        let (d, noted, result) := makeMissing rest d
        (d, created dir :: noted, result.map (dir :: ·))

def iconDirectories (c : Config) : List Path := c.icons.map fun p => c.resolve p.sourceDir

def fontPaths (c : Config) : List Path := c.glyphs.map fun p => c.resolve p.font

def sources (c : Config) : List Path :=
  c.fontPaths ++ c.icons.flatMap fun p => p.entries.flatMap (p.candidates (c.resolve p.sourceDir))

def loadFonts (loader : Loader τ σ) (d : Disk) : List Path → τ → Except Failure (List σ) × τ
  | [], t => (.ok [], t)
  | p :: rest, t => match loader.load d p t with
    | (.error failure, t) => (.error failure, t)
    | (.ok font, t) =>
      let (fonts, t) := loadFonts loader d rest t
      (fonts.map (font :: ·), t)

def product (c : Config) (declarations data : Path) (table : Table) : Product where
  table
  artifacts := Listing.artifacts table (c.resolve declarations) (c.resolve data)

def bakeGlyphs (c : Config) (loader : Loader τ σ) (p : GlyphProfile) (font : σ) :
    Except Failure Product × Journal :=
  let fine := fun ch => !loader.breaksDown font ch p.fontSize
  match p.chars.find? fun ch => !fine ch with
  | some ch =>
    let (_, noted, _) := p.bakeChars loader.render (p.chars.takeWhile fine) p.emptyTable font
    (.error (.breakdown (.glyph ch)), noted)
  | none =>
    let (table, noted, _) := p.bake loader.render font
    (table.map (c.product p.declarations p.data), noted)

def bakeIcons (c : Config) (imaging : Icon.Imaging) (d : Disk) (p : IconProfile) :
    Except Failure Product × Journal :=
  let (table, noted) := p.bake d (c.resolve p.sourceDir) imaging
  (table.map (c.product p.declarations p.data), noted)

def inOrder {α β : Type} (step : α → Except Failure β × Journal) :
    List α → Except Failure (List β) × Journal
  | [] => (.ok [], [])
  | a :: rest => match step a with
    | (.error failure, noted) => (.error failure, noted)
    | (.ok b, noted) =>
      let (result, more) := inOrder step rest
      (result.map (b :: ·), noted ++ more)

def bakeAll (c : Config) (loader : Loader τ σ) (d : Disk) (fonts : List σ) :
    Except Failure (List Product) × Journal :=
  match inOrder (fun (p, font) => c.bakeGlyphs loader p font) (c.glyphs.zip fonts) with
  | (.error failure, noted) => (.error failure, noted)
  | (.ok glyphs, noted) =>
    let (icons, more) := inOrder (c.bakeIcons loader.imaging d) c.icons
    (icons.map (glyphs ++ ·), noted ++ more)

def finish (products : List Product) (d : Disk) : Disk × Journal × Except Failure Outcome :=
  let (d, noted, result) := publish (products.flatMap (·.artifacts)) d
  match result with
  | .error failure => (d, noted, .error failure)
  | .ok () =>
    let summaries := products.map (·.summary)
    (d, noted ++ summaries.map (·.note), .ok (.completed summaries))

/-- One run. Only its last step writes files, and it is not reached unless the configuration is
    valid, every icon directory is there, every font loads and every picture decodes. -/
def run (c : Config) (loader : Loader τ σ) (t : τ) (d : Disk) : RunResult τ :=
  match c.check with
  | .error failure => ⟨d, [], t, .error failure⟩
  | .ok () => match makeMissing c.iconDirectories d with
    | (d, noted, .error failure) => ⟨d, noted, t, .error failure⟩
    | (d, noted, .ok (dir :: dirs)) => ⟨d, noted, t, .ok (.notReady (dir :: dirs))⟩
    | (d, _, .ok []) =>
      match loadFonts loader d c.fontPaths t with
      | (.error failure, t) => ⟨d, [], t, .error failure⟩
      | (.ok fonts, t) => match c.bakeAll loader d fonts with
        | (.error failure, noted) => ⟨d, noted, t, .error failure⟩
        | (.ok products, noted) =>
          let (d, more, outcome) := finish products d
          ⟨d, noted ++ more, t, outcome⟩

end Config

end PixelTables
