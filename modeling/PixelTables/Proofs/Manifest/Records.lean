import PixelTables.Manifest
import PixelTables.Proofs.Results

namespace PixelTables.Manifest

open Toml (Value Entries)

inductive Kind where
  | config
  | glyphs
  | icons
  | icon
  | shape
  deriving DecidableEq, Repr

namespace Kind

def required : Kind → List String
  | .config => []
  | .glyphs => ["name", "prefix", "font", "font_size", "cell_width", "cell_height", "first_char",
      "count", "declarations", "data"]
  | .icons => ["name", "prefix", "source_dir", "cell_size", "content_size", "alpha_cutoff",
      "entries", "declarations", "data"]
  | .icon => ["id", "file"]
  | .shape => []

/-- The fields that may be left out and the values that stand for nothing else. A shape that is left
    out is one of which all is left out. -/
def defaults : Kind → Entries
  | .config => [("glyphs", .array []), ("icons", .array [])]
  | .glyphs => [("padding", .integer 4), ("encoding", .table [("mode", .text "intensity")]),
      ("shape", .table [])]
  | .icons => [("shape", .table [])]
  | .icon => []
  | .shape => [("layout", .text "grid"), ("count_name", .text "COUNT"),
      ("count_offset", .integer 0), ("size_name", .text "SIZE")]

/-- The fields that may be left out and have no value that says so. -/
def bare : Kind → List String
  | .icons => ["fallback"]
  | .icon => ["content_size"]
  | _ => []

def keys (k : Kind) : List String := k.required ++ k.defaults.map (·.1) ++ k.bare

def fields : Kind → List String
  | .config => configFields
  | .glyphs => glyphFields
  | .icons => iconFields
  | .icon => iconEntryFields
  | .shape => shapeFields

theorem mem_keys {k : Kind} {key : String} : key ∈ k.keys ↔ key ∈ k.fields := by
  have same : k.keys.Perm k.fields := by cases k <;> decide
  exact same.mem_iff

def lists : Kind → List (String × Kind)
  | .config => [("glyphs", .glyphs), ("icons", .icons)]
  | .icons => [("entries", .icon)]
  | _ => []

def nests : Kind → List (String × Kind)
  | .glyphs | .icons => [("shape", .shape)]
  | _ => []

theorem eq_of_lists {k sub other : Kind} {name : String} (field : (name, sub) ∈ k.lists)
    (same : (name, other) ∈ k.lists) : other = sub := by
  cases k <;> simp only [lists, List.mem_cons, List.not_mem_nil, or_false, Prod.mk.injEq] at field same
  · rcases field with ⟨rfl, rfl⟩ | ⟨rfl, rfl⟩ <;> simpa using same
  · rw [field.2, same.2]

theorem eq_of_nests {k sub : Kind} {name : String} (field : (name, sub) ∈ k.nests) :
    name = "shape" ∧ sub = .shape := by
  cases k <;> simp_all [nests]

def Result : Kind → Type
  | .config => Config
  | .glyphs => GlyphProfile
  | .icons => IconProfile
  | .icon => IconEntry
  | .shape => Shape

def decode (root : Path) : (k : Kind) → Decoder k.Result
  | .config => Manifest.config root
  | .glyphs => glyphProfile
  | .icons => iconProfile
  | .icon => iconEntry
  | .shape => Manifest.shape

end Kind

/-- The records of a document that are written as tables, with the document itself for the first. -/
inductive Record (doc : Entries) : Kind → Entries → Prop
  | top : Record doc .config doc
  | listed {k sub : Kind} {es inner : Entries} {name : String} {items : List Value}
      (outer : Record doc k es) (field : (name, sub) ∈ k.lists)
      (held : es.lookup name = some (.array items)) (item : .table inner ∈ items) :
      Record doc sub inner
  | nested {k sub : Kind} {es inner : Entries} {name : String} (outer : Record doc k es)
      (field : (name, sub) ∈ k.nests) (held : es.lookup name = some (.table inner)) :
      Record doc sub inner

theorem lookup_eq_none {es : Entries} {key : String} (absent : key ∉ es.map (·.1)) :
    es.lookup key = none := by
  rw [List.lookup_eq_none_iff]
  intro e member
  simpa using fun same : key = e.1 => absent (same ▸ List.mem_map_of_mem member)

theorem bind_fields {α : Type} {names : List String} {es : Entries} (body : Fields → Option α) :
    (fields names (.table es) >>= body) =
      if es.all (·.1 ∈ names) then body (es.lookup ·) else none := by
  rw [fields]
  split <;> rfl

theorem bind_fields_eq_some {α : Type} {names : List String} {es : Entries}
    {body : Fields → Option α} {a : α} : (fields names (.table es) >>= body) = some a ↔
      (∀ e ∈ es, e.1 ∈ names) ∧ body (es.lookup ·) = some a := by
  have known : es.all (·.1 ∈ names) = true ↔ ∀ e ∈ es, e.1 ∈ names := by
    simp only [List.all_eq_true, decide_eq_true_eq]
  rw [bind_fields, ← known]
  split
  · rename_i all
    rw [and_iff_right all]
  · rename_i unknown
    exact iff_of_false (by simp) fun read => unknown read.1

namespace Fields

variable {α : Type} {f : Fields} {name : String} {decode : Decoder α} {a default : α} {v : Value}

theorem isSome_of_required (read : f.required name decode = some a) : (f name).isSome := by
  obtain ⟨_, held, _⟩ := Option.bind_eq_some_iff.mp read
  rw [held]
  rfl

theorem of_required (read : f.required name decode = some a) (held : f name = some v) :
    decode v = some a := by
  rwa [required, held, Option.bind_some] at read

theorem of_withDefault (read : f.withDefault name decode default = some a)
    (held : f name = some v) : decode v = some a := by
  simpa only [withDefault, held] using read

end Fields

theorem isSome_of_list {α : Type} {item : Decoder α} {items : List Value} {as : List α}
    (read : list item (.array items) = some as) : ∀ v ∈ items, (item v).isSome := by
  rw [list] at read
  induction items generalizing as with
  | nil => simp
  | cons v rest ih =>
    simp only [List.mapM_cons, Option.bind_eq_bind, Option.bind_eq_some_iff] at read
    obtain ⟨a, first, later, others, _⟩ := read
    exact List.forall_mem_cons.mpr ⟨by rw [first]; rfl, ih others⟩

structure Sound (root : Path) (k : Kind) (es : Entries) : Prop where
  known : ∀ e ∈ es, e.1 ∈ k.fields
  present : ∀ name ∈ k.required, (es.lookup name).isSome
  listed : ∀ name sub, (name, sub) ∈ k.lists → ∀ items, es.lookup name = some (.array items) →
    ∀ v ∈ items, (sub.decode root v).isSome
  nested : ∀ name sub, (name, sub) ∈ k.nests → ∀ v, es.lookup name = some v →
    (sub.decode root v).isSome

section Sound

variable {root : Path} {es : Entries}

theorem config_sound {c : Config} (read : config root (.table es) = some c) :
    Sound root .config es := by
  obtain ⟨known, read⟩ := bind_fields_eq_some.mp read
  simp only [bind_eq_some] at read
  obtain ⟨_, glyphs, _, icons, _⟩ := read
  refine ⟨known, by simp [Kind.required], ?_, by simp [Kind.nests]⟩
  intro name sub field items held
  simp only [Kind.lists, List.mem_cons, List.not_mem_nil, or_false, Prod.mk.injEq] at field
  rcases field with ⟨rfl, rfl⟩ | ⟨rfl, rfl⟩
  · exact isSome_of_list (Fields.of_withDefault glyphs held)
  · exact isSome_of_list (Fields.of_withDefault icons held)

theorem glyphProfile_sound {p : GlyphProfile} (read : glyphProfile (.table es) = some p) :
    Sound root .glyphs es := by
  obtain ⟨known, read⟩ := bind_fields_eq_some.mp read
  simp only [bind_eq_some] at read
  obtain ⟨_, name, _, stem, _, font, _, fontSize, _, cellWidth, _, cellHeight, _,
    padding, _, firstChar, _, count, _, encoding, _, shape, _, declarations, _, data, _⟩ := read
  refine ⟨known, ?_, by simp [Kind.lists], ?_⟩
  · simp only [Kind.required, List.forall_mem_cons]
    exact ⟨Fields.isSome_of_required name, Fields.isSome_of_required stem,
      Fields.isSome_of_required font, Fields.isSome_of_required fontSize,
      Fields.isSome_of_required cellWidth, Fields.isSome_of_required cellHeight,
      Fields.isSome_of_required firstChar, Fields.isSome_of_required count,
      Fields.isSome_of_required declarations, Fields.isSome_of_required data, by simp⟩
  · intro name sub field v held
    obtain ⟨rfl, rfl⟩ := Kind.eq_of_nests field
    exact Option.isSome_of_mem (Fields.of_withDefault shape held)

theorem iconProfile_sound {p : IconProfile} (read : iconProfile (.table es) = some p) :
    Sound root .icons es := by
  obtain ⟨known, read⟩ := bind_fields_eq_some.mp read
  simp only [bind_eq_some] at read
  obtain ⟨_, name, _, stem, _, sourceDir, _, fallback, _, cellSize, _,
    contentSize, _, alphaCutoff, _, entries, _, shape, _, declarations, _, data, _⟩ := read
  refine ⟨known, ?_, ?_, ?_⟩
  · simp only [Kind.required, List.forall_mem_cons]
    exact ⟨Fields.isSome_of_required name, Fields.isSome_of_required stem,
      Fields.isSome_of_required sourceDir, Fields.isSome_of_required cellSize,
      Fields.isSome_of_required contentSize, Fields.isSome_of_required alphaCutoff,
      Fields.isSome_of_required entries, Fields.isSome_of_required declarations,
      Fields.isSome_of_required data, by simp⟩
  · intro name sub field items held
    simp only [Kind.lists, List.mem_singleton, Prod.mk.injEq] at field
    obtain ⟨rfl, rfl⟩ := field
    exact isSome_of_list (Fields.of_required entries held)
  · intro name sub field v held
    obtain ⟨rfl, rfl⟩ := Kind.eq_of_nests field
    exact Option.isSome_of_mem (Fields.of_withDefault shape held)

theorem iconEntry_sound {e : IconEntry} (read : iconEntry (.table es) = some e) :
    Sound root .icon es := by
  obtain ⟨known, read⟩ := bind_fields_eq_some.mp read
  simp only [bind_eq_some] at read
  obtain ⟨_, id, _, file, _⟩ := read
  refine ⟨known, ?_, by simp [Kind.lists], by simp [Kind.nests]⟩
  simp only [Kind.required, List.forall_mem_cons]
  exact ⟨Fields.isSome_of_required id, Fields.isSome_of_required file, by simp⟩

theorem shape_sound {made : Shape} (read : shape (.table es) = some made) : Sound root .shape es := by
  obtain ⟨known, _⟩ := bind_fields_eq_some.mp read
  exact ⟨known, by simp [Kind.required], by simp [Kind.lists], by simp [Kind.nests]⟩

theorem sound_of_isSome {k : Kind} (read : (k.decode root (.table es)).isSome) :
    Sound root k es := by
  obtain ⟨made, read⟩ := Option.isSome_iff_exists.mp read
  cases k with
  | config => exact config_sound read
  | glyphs => exact glyphProfile_sound read
  | icons => exact iconProfile_sound read
  | icon => exact iconEntry_sound read
  | shape => exact shape_sound read

theorem isSome_of_record {doc : Entries} {k : Kind} {es : Entries} (record : Record doc k es)
    (read : (config root (.table doc)).isSome) : (k.decode root (.table es)).isSome := by
  induction record with
  | top => exact read
  | listed _ field held item outer => exact (sound_of_isSome outer).listed _ _ field _ held _ item
  | nested _ field held outer => exact (sound_of_isSome outer).nested _ _ field _ held

theorem config_eq_none {doc : Entries} {k : Kind} {es : Entries} (record : Record doc k es)
    (wrong : (∃ key ∈ es.map (·.1), key ∉ k.keys) ∨ ∃ key ∈ k.required, key ∉ es.map (·.1)) :
    config root (.table doc) = none := by
  rw [← Option.not_isSome_iff_eq_none]
  intro read
  have sound := sound_of_isSome (isSome_of_record record read)
  rcases wrong with ⟨key, present, unknown⟩ | ⟨key, needed, absent⟩
  · obtain ⟨e, member, rfl⟩ := List.mem_map.mp present
    exact unknown (Kind.mem_keys.mpr (sound.known e member))
  · have present := sound.present key needed
    rw [lookup_eq_none absent] at present
    cases present

example : "root" ∉ Kind.config.keys := by decide

end Sound

end PixelTables.Manifest
