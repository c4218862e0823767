import PixelTables.Profile.Validation
import PixelTables.Toml.Grammar

namespace PixelTables.Manifest

open Toml (Value)

abbrev Decoder (α : Type) := Value → Option α

def text : Decoder String
  | .text s => some s
  | _ => none

def path : Decoder Path
  | .text s => some ⟨s⟩
  | _ => none

def char : Decoder Char
  | .text s => match s.toList with
    | [c] => some c
    | _ => none
  | _ => none

def natural (count : Nat) : Decoder Nat
  | .integer n => if 0 ≤ n ∧ n < count then some n.toNat else none
  | _ => none

def word : Decoder UInt32 := fun v => (natural UInt32.size v).map Nat.toUInt32

def byte : Decoder UInt8 := fun v => (natural UInt8.size v).map Nat.toUInt8

def size : Decoder Float32
  | .float x => some x.toFloat32
  | .integer n =>
    let size := n.natAbs.toUInt64.toFloat32
    some (if n < 0 then -size else size)
  | _ => none

def list {α : Type} (item : Decoder α) : Decoder (List α)
  | .array items => items.mapM item
  | _ => none

abbrev Fields := String → Option Value

/-- The fields of a record: a table without any other key, or an array of them in their order, whose
    end may be left out where the fields have defaults. -/
def fields (names : List String) : Decoder Fields
  | .table entries => if entries.all (·.1 ∈ names) then some (List.lookup · entries) else none
  | .array items => some (List.lookup · (names.zip items))
  | _ => none

namespace Fields

variable {α : Type}

def required (f : Fields) (name : String) (decode : Decoder α) : Option α := (f name).bind decode

def withDefault (f : Fields) (name : String) (decode : Decoder α) (default : α) : Option α :=
  match f name with
  | none => some default
  | some v => decode v

end Fields

def layout : Decoder Layout := fun v => do
  let name ←
    match v with
    | .text s => some s
    | .table [(key, .table [])] | .table [(key, .array [])] => some key
    | _ => none
  match name with
  | "grid" => some .grid
  | "flat" => some .flat
  | _ => none

def shapeFields : List String := ["layout", "count_name", "count_offset", "size_name"]

def shape : Decoder Shape := fun v => do
  let f ← fields shapeFields v
  let standard : Shape := {}
  let layout ← f.withDefault "layout" layout standard.layout
  let countName ← f.withDefault "count_name" text standard.countName
  let countOffset ← f.withDefault "count_offset" word standard.countOffset
  let sizeName ← f.withDefault "size_name" text standard.sizeName
  some ⟨layout, countName, countOffset, sizeName⟩

/-- An encoding in a table by its mode, or in an array after its mode. Keys that a mode has no use
    for are passed over if what stands at them is in range, but further items of an array are not. -/
def encoding : Decoder GlyphEncoding
  | .table entries =>
    if Value.entriesInRange entries then do
      let mode ← (entries.lookup "mode").bind text
      match mode with
      | "binary" => do
        let threshold ← (entries.lookup "threshold").bind byte
        some (.binary threshold)
      | "intensity" => some .intensity
      | _ => none
    else none
  | .array [.text "binary", threshold] => (byte threshold).map .binary
  | .array [.text "intensity"] => some .intensity
  | _ => none

def glyphFields : List String :=
  ["name", "prefix", "font", "font_size", "cell_width", "cell_height", "padding", "first_char",
    "count", "encoding", "shape", "declarations", "data"]

def glyphProfile : Decoder GlyphProfile := fun v => do
  let f ← fields glyphFields v
  let name ← f.required "name" text
  let stem ← f.required "prefix" text
  let font ← f.required "font" path
  let fontSize ← f.required "font_size" size
  let cellWidth ← f.required "cell_width" word
  let cellHeight ← f.required "cell_height" word
  let padding ← f.withDefault "padding" word defaultPadding
  let firstChar ← f.required "first_char" char
  let count ← f.required "count" word
  let encoding ← f.withDefault "encoding" encoding .intensity
  let shape ← f.withDefault "shape" shape {}
  let declarations ← f.required "declarations" path
  let data ← f.required "data" path
  some ⟨name, stem, font, fontSize, cellWidth, cellHeight, padding, firstChar, count, encoding,
    shape, declarations, data⟩

def iconEntryFields : List String := ["id", "file", "content_size"]

def iconEntry : Decoder IconEntry := fun v => do
  let f ← fields iconEntryFields v
  let id ← f.required "id" text
  let file ← f.required "file" path
  let contentSize ← f.withDefault "content_size" (fun v => (word v).map some) none
  some ⟨id, file, contentSize⟩

def iconFields : List String :=
  ["name", "prefix", "source_dir", "fallback", "cell_size", "content_size", "alpha_cutoff",
    "entries", "shape", "declarations", "data"]

def iconProfile : Decoder IconProfile := fun v => do
  let f ← fields iconFields v
  let name ← f.required "name" text
  let stem ← f.required "prefix" text
  let sourceDir ← f.required "source_dir" path
  let fallback ← f.withDefault "fallback" (fun v => (path v).map some) none
  let cellSize ← f.required "cell_size" word
  let contentSize ← f.required "content_size" word
  let alphaCutoff ← f.required "alpha_cutoff" byte
  let entries ← f.required "entries" (list iconEntry)
  let shape ← f.withDefault "shape" shape {}
  let declarations ← f.required "declarations" path
  let data ← f.required "data" path
  some ⟨name, stem, sourceDir, fallback, cellSize, contentSize, alphaCutoff, entries, shape,
    declarations, data⟩

def configFields : List String := ["glyphs", "icons"]

def config (root : Path) : Decoder Config := fun v => do
  let f ← fields configFields v
  let glyphs ← f.withDefault "glyphs" (list glyphProfile) []
  let icons ← f.withDefault "icons" (list iconProfile) []
  some ⟨root, glyphs, icons⟩

def parse? (source : String) (root : Path) : Option Config :=
  (Toml.read? source).bind fun entries => config root (.table entries)

def read (source : String) (root : Path) : Except Failure Config :=
  match parse? source root with
  | none => .error (.config none .malformed)
  | some c => match c.check with
    | .error failure => .error failure
    | .ok () => .ok c

end PixelTables.Manifest
