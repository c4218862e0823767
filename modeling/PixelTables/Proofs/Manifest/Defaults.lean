import PixelTables.Proofs.Manifest.Records
import Mathlib.Logic.Relation

namespace PixelTables.Manifest

open Toml (Value Entries)

/-- A field that a record of a kind leaves out, or a record inside it, is added with its default. -/
inductive Adds : Kind → Entries → Entries → Prop
  | field {k : Kind} {before after : Entries} {key : String} {v : Value}
      (spelled : (key, v) ∈ k.defaults) (omitted : key ∉ (before ++ after).map (·.1)) :
      Adds k (before ++ after) (before ++ (key, v) :: after)
  | listed {k sub : Kind} {before after inner inner' : Entries} {name : String}
      {first rest : List Value} (field : (name, sub) ∈ k.lists) (adds : Adds sub inner inner') :
      Adds k (before ++ (name, .array (first ++ .table inner :: rest)) :: after)
        (before ++ (name, .array (first ++ .table inner' :: rest)) :: after)
  | nested {k sub : Kind} {before after inner inner' : Entries} {name : String}
      (field : (name, sub) ∈ k.nests) (adds : Adds sub inner inner') :
      Adds k (before ++ (name, .table inner) :: after) (before ++ (name, .table inner') :: after)

inductive Reads (root : Path) (k : Kind) (name : String) : Option Value → Option Value → Prop
  | same (held : Option Value) : Reads root k name held held
  | default {v : Value} (spelled : (name, v) ∈ k.defaults) : Reads root k name none (some v)
  | listed {sub : Kind} {v w : Value} (field : (name, sub) ∈ k.lists)
      (same : list (sub.decode root) w = list (sub.decode root) v) :
      Reads root k name (some v) (some w)
  | nested {sub : Kind} {v w : Value} (field : (name, sub) ∈ k.nests)
      (same : sub.decode root w = sub.decode root v) : Reads root k name (some v) (some w)

structure Alike (root : Path) (k : Kind) (es es' : Entries) : Prop where
  known : es'.all (·.1 ∈ k.fields) = es.all (·.1 ∈ k.fields)
  reads : ∀ name, Reads root k name (es.lookup name) (es'.lookup name)

section Lookups

variable {root : Path} {k : Kind} {before after : Entries} {key : String} {v w : Value}

theorem alike_of_field (spelled : (key, v) ∈ k.defaults)
    (omitted : key ∉ (before ++ after).map (·.1)) :
    Alike root k (before ++ after) (before ++ (key, v) :: after) where
  known := by
    have known : key ∈ k.fields := by
      rw [← Kind.mem_keys, Kind.keys]
      exact List.mem_append_left _ (List.mem_append_right _ (List.mem_map_of_mem spelled))
    simp [known]
  reads name := by
    have none := lookup_eq_none omitted
    rw [List.lookup_append] at none ⊢
    rw [List.lookup_append]
    by_cases same : name = key
    · subst same
      rw [none, (Option.or_eq_none_iff.mp none).1, List.lookup_cons_self]
      exact .default spelled
    · rw [List.lookup_cons, beq_false_of_ne same]
      exact .same _

theorem alike_of_replace (read : Reads root k key (some v) (some w)) :
    Alike root k (before ++ (key, v) :: after) (before ++ (key, w) :: after) where
  known := by simp
  reads name := by
    rw [List.lookup_append, List.lookup_append]
    by_cases same : name = key
    · subst same
      rw [List.lookup_cons_self, List.lookup_cons_self]
      -- an earlier entry under this name hides both
      cases before.lookup name with
      | none => exact read
      | some held => exact .same _
    · rw [List.lookup_cons, List.lookup_cons, beq_false_of_ne same]
      exact .same _

end Lookups

namespace Alike

variable {α : Type} {root : Path} {k : Kind} {es es' : Entries} {decode : Decoder α} {default : α}

theorem plain (alike : Alike root k es es') (name : String)
    (leaf : name ∉ k.defaults.map (·.1) ++ k.lists.map (·.1) ++ k.nests.map (·.1)) :
    es'.lookup name = es.lookup name := by
  have reads := alike.reads name
  simp only [List.mem_append, not_or] at leaf
  generalize es.lookup name = held at reads ⊢
  generalize es'.lookup name = other at reads ⊢
  cases reads with
  | same => rfl
  | default spelled => exact absurd (List.mem_map_of_mem spelled) leaf.1.1
  | listed field _ => exact absurd (List.mem_map_of_mem field) leaf.1.2
  | nested field _ => exact absurd (List.mem_map_of_mem field) leaf.2

theorem required (alike : Alike root k es es') (name : String)
    (leaf : name ∉ k.defaults.map (·.1) ++ k.lists.map (·.1) ++ k.nests.map (·.1))
    (decode : Decoder α) : Fields.required (es'.lookup ·) name decode =
      Fields.required (es.lookup ·) name decode := by
  rw [Fields.required, Fields.required, alike.plain name leaf]

theorem withDefault (alike : Alike root k es es') (name : String)
    (spelled : ∀ v, (name, v) ∈ k.defaults → decode v = some default)
    (listed : ∀ sub, (name, sub) ∈ k.lists → ∀ v w,
      list (sub.decode root) w = list (sub.decode root) v → decode w = decode v)
    (nested : ∀ sub, (name, sub) ∈ k.nests → ∀ v w,
      sub.decode root w = sub.decode root v → decode w = decode v) :
    Fields.withDefault (es'.lookup ·) name decode default =
      Fields.withDefault (es.lookup ·) name decode default := by
  have reads := alike.reads name
  simp only [Fields.withDefault]
  generalize es.lookup name = held at reads ⊢
  generalize es'.lookup name = other at reads ⊢
  cases reads with
  | same => rfl
  | default member => exact spelled _ member
  | listed field same => exact listed _ field _ _ same
  | nested field same => exact nested _ field _ _ same

theorem withDefault_leaf (alike : Alike root k es es') (name : String)
    (leaf : name ∉ k.lists.map (·.1) ++ k.nests.map (·.1))
    (spelled : ∀ v, (name, v) ∈ k.defaults → decode v = some default) :
    Fields.withDefault (es'.lookup ·) name decode default =
      Fields.withDefault (es.lookup ·) name decode default := by
  rw [List.mem_append, not_or] at leaf
  exact alike.withDefault name spelled
    (fun _ field => absurd (List.mem_map_of_mem field) leaf.1)
    (fun _ field => absurd (List.mem_map_of_mem field) leaf.2)

theorem profiles (alike : Alike root .config es es') (name : String) (sub : Kind)
    (field : (name, sub) ∈ Kind.config.lists) :
    Fields.withDefault (es'.lookup ·) name (list (sub.decode root)) [] =
      Fields.withDefault (es.lookup ·) name (list (sub.decode root)) [] := by
  apply alike.withDefault name
  · simp only [Kind.defaults, List.mem_cons, List.not_mem_nil, or_false, Prod.mk.injEq]
    rintro _ (⟨_, rfl⟩ | ⟨_, rfl⟩) <;> rfl
  · intro other same v w read
    obtain rfl := Kind.eq_of_lists field same
    exact read
  · simp [Kind.nests]

theorem entries (alike : Alike root .icons es es') :
    Fields.required (es'.lookup ·) "entries" (list iconEntry) =
      Fields.required (es.lookup ·) "entries" (list iconEntry) := by
  rw [Fields.required, Fields.required]
  have reads := alike.reads "entries"
  generalize es.lookup "entries" = held at reads ⊢
  generalize es'.lookup "entries" = other at reads ⊢
  cases reads with
  | same => rfl
  | default spelled => simp [Kind.defaults] at spelled
  | @listed sub _ _ field same =>
    obtain rfl : sub = .icon := Kind.eq_of_lists (by simp [Kind.lists]) field
    exact same
  | nested field _ => simp [Kind.nests] at field

theorem shape (alike : Alike root k es es') :
    Fields.withDefault (es'.lookup ·) "shape" shape {} =
      Fields.withDefault (es.lookup ·) "shape" shape {} := by
  apply alike.withDefault "shape"
  · cases k <;> simp [Kind.defaults, Manifest.shape, fields, Fields.withDefault]
  · cases k <;> simp [Kind.lists]
  · intro sub field v w same
    obtain ⟨_, rfl⟩ := Kind.eq_of_nests field
    exact same

end Alike

section Congruence

variable {root : Path} {es es' : Entries}

theorem config_congr (alike : Alike root .config es es') :
    config root (.table es') = config root (.table es) := by
  have known : es'.all (·.1 ∈ configFields) = es.all (·.1 ∈ configFields) := alike.known
  have glyphs : Fields.withDefault (es'.lookup ·) "glyphs" (list glyphProfile) [] =
      Fields.withDefault (es.lookup ·) "glyphs" (list glyphProfile) [] :=
    alike.profiles "glyphs" .glyphs (by simp [Kind.lists])
  have icons : Fields.withDefault (es'.lookup ·) "icons" (list iconProfile) [] =
      Fields.withDefault (es.lookup ·) "icons" (list iconProfile) [] :=
    alike.profiles "icons" .icons (by simp [Kind.lists])
  rw [config, config, bind_fields, bind_fields, known, glyphs, icons]

theorem glyphProfile_congr (alike : Alike root .glyphs es es') :
    glyphProfile (.table es') = glyphProfile (.table es) := by
  have known : es'.all (·.1 ∈ glyphFields) = es.all (·.1 ∈ glyphFields) := alike.known
  have padding : Fields.withDefault (es'.lookup ·) "padding" word defaultPadding =
      Fields.withDefault (es.lookup ·) "padding" word defaultPadding :=
    alike.withDefault_leaf "padding" (by decide)
      (by simp [Kind.defaults, word, natural, defaultPadding])
  have encoding : Fields.withDefault (es'.lookup ·) "encoding" encoding .intensity =
      Fields.withDefault (es.lookup ·) "encoding" encoding .intensity :=
    alike.withDefault_leaf "encoding" (by decide)
      (by simp [Kind.defaults, encoding, Value.entriesInRange, Value.inRange, text])
  rw [glyphProfile, glyphProfile, bind_fields, bind_fields, known, padding, encoding, alike.shape]
  -- no other field has a default or holds a record
  simp (disch := decide) only [alike.required]

theorem iconProfile_congr (alike : Alike root .icons es es') :
    iconProfile (.table es') = iconProfile (.table es) := by
  have known : es'.all (·.1 ∈ iconFields) = es.all (·.1 ∈ iconFields) := alike.known
  have fallback : Fields.withDefault (es'.lookup ·) "fallback" (fun v => (path v).map some) none =
      Fields.withDefault (es.lookup ·) "fallback" (fun v => (path v).map some) none :=
    alike.withDefault_leaf "fallback" (by decide) (by simp [Kind.defaults])
  rw [iconProfile, iconProfile, bind_fields, bind_fields, known, fallback, alike.entries, alike.shape]
  simp (disch := decide) only [alike.required]

theorem iconEntry_congr (alike : Alike root .icon es es') :
    iconEntry (.table es') = iconEntry (.table es) := by
  have known : es'.all (·.1 ∈ iconEntryFields) = es.all (·.1 ∈ iconEntryFields) := alike.known
  have contentSize :
      Fields.withDefault (es'.lookup ·) "content_size" (fun v => (word v).map some) none =
        Fields.withDefault (es.lookup ·) "content_size" (fun v => (word v).map some) none :=
    alike.withDefault_leaf "content_size" (by decide) (by simp [Kind.defaults])
  rw [iconEntry, iconEntry, bind_fields, bind_fields, known, contentSize]
  simp (disch := decide) only [alike.required]

theorem shape_congr (alike : Alike root .shape es es') :
    shape (.table es') = shape (.table es) := by
  have known : es'.all (·.1 ∈ shapeFields) = es.all (·.1 ∈ shapeFields) := alike.known
  have layout : Fields.withDefault (es'.lookup ·) "layout" layout .grid =
      Fields.withDefault (es.lookup ·) "layout" layout .grid :=
    alike.withDefault_leaf "layout" (by decide) (by simp [Kind.defaults, layout])
  have countName : Fields.withDefault (es'.lookup ·) "count_name" text "COUNT" =
      Fields.withDefault (es.lookup ·) "count_name" text "COUNT" :=
    alike.withDefault_leaf "count_name" (by decide) (by simp [Kind.defaults, text])
  have countOffset : Fields.withDefault (es'.lookup ·) "count_offset" word 0 =
      Fields.withDefault (es.lookup ·) "count_offset" word 0 :=
    alike.withDefault_leaf "count_offset" (by decide) (by simp [Kind.defaults, word, natural])
  have sizeName : Fields.withDefault (es'.lookup ·) "size_name" text "SIZE" =
      Fields.withDefault (es.lookup ·) "size_name" text "SIZE" :=
    alike.withDefault_leaf "size_name" (by decide) (by simp [Kind.defaults, text])
  rw [shape, shape, bind_fields, bind_fields, known]
  simp only [layout, countName, countOffset, sizeName]

theorem decode_congr {k : Kind} (alike : Alike root k es es') :
    k.decode root (.table es') = k.decode root (.table es) := by
  cases k with
  | config => exact config_congr alike
  | glyphs => exact glyphProfile_congr alike
  | icons => exact iconProfile_congr alike
  | icon => exact iconEntry_congr alike
  | shape => exact shape_congr alike

theorem decode_of_adds {k : Kind} (adds : Adds k es es') :
    k.decode root (.table es') = k.decode root (.table es) := by
  induction adds with
  | field spelled omitted => exact decode_congr (alike_of_field spelled omitted)
  | listed field _ same =>
    apply decode_congr (alike_of_replace (.listed field _))
    simp only [list, List.mapM_append, List.mapM_cons, same]
  | nested field _ same => exact decode_congr (alike_of_replace (.nested field same))

end Congruence

theorem read_eq_ok {source : String} {root : Path} {c : Config} :
    read source root = .ok c ↔ parse? source root = some c ∧ c.check = .ok () := by
  rw [read]
  cases parse? source root with
  | none => simp
  | some made =>
    simp only [Option.some.injEq]
    cases checked : made.check with
    | error failure =>
      simp only [reduceCtorEq, false_iff, not_and]
      rintro rfl valid
      cases checked.symm.trans valid
    | ok _ =>
      simp only [Except.ok.injEq, iff_self_and]
      rintro rfl
      exact checked

/-- Documents are read strictly. A document is refused for any record in it with an unknown key or
    without a required one; a document in which defaults are spelled out, in any records and at any
    places, is read as the same configuration; and only a valid configuration is ever given out. -/
theorem config_strict (root : Path) :
    (∀ doc k es, Record doc k es →
      ((∃ key ∈ es.map (·.1), key ∉ k.keys) ∨ ∃ key ∈ k.required, key ∉ es.map (·.1)) →
      config root (.table doc) = none) ∧
      (∀ doc doc', Relation.ReflTransGen (Adds .config) doc doc' →
        config root (.table doc') = config root (.table doc)) ∧
      ∀ source c, read source root = .ok c ↔ ∃ doc, Toml.read? source = some doc ∧
        config root (.table doc) = some c ∧ c.check = .ok () := by
  refine ⟨fun doc k es => config_eq_none, fun doc doc' adds => ?_, fun source c => ?_⟩
  · induction adds with
    | refl => rfl
    | tail _ last same => exact (decode_of_adds last).trans same
  · rw [read_eq_ok, parse?, Option.bind_eq_some_iff, ← exists_and_right]
    simp only [and_assoc]

def sparse : Entries := [
  ("name", .text "t"), ("prefix", .text "T"), ("source_dir", .text "d"), ("cell_size", .integer 1),
  ("content_size", .integer 1), ("alpha_cutoff", .integer 128), ("declarations", .text "t.h"),
  ("data", .text "t.c"), ("entries", .array [.table [("id", .text "A"), ("file", .text "a.png")]])]

def withIcons (more : Entries) : Entries := [("icons", .array [.table (sparse ++ more)])]

theorem config_strict_sparse :
    (config ⟨""⟩ (.table (withIcons []))).isSome ∧
      config ⟨""⟩ (.table (withIcons [("shape", .table [("size_name", .text "SIZE")])])) =
        config ⟨""⟩ (.table (withIcons [])) ∧
      config ⟨""⟩ (.table (withIcons [("cutoff", .integer 128)])) = none := by
  obtain ⟨refused, kept, _⟩ := config_strict ⟨""⟩
  have icons : ("icons", Kind.icons) ∈ Kind.config.lists := by simp [Kind.lists]
  have within : ∀ more more', Adds .icons (sparse ++ more) (sparse ++ more') →
      Adds .config (withIcons more) (withIcons more') := by
    intro more more' adds
    have listed : Adds .config
        ([] ++ ("icons", .array ([] ++ .table (sparse ++ more) :: [])) :: [])
        ([] ++ ("icons", .array ([] ++ .table (sparse ++ more') :: [])) :: []) :=
      .listed icons adds
    exact listed
  have bare : Adds .icons (sparse ++ []) (sparse ++ [("shape", .table [])]) :=
    .field (by simp [Kind.defaults]) (by decide)
  have name : Adds .shape ([] ++ []) ([] ++ [("size_name", .text "SIZE")]) :=
    .field (by simp [Kind.defaults]) (by decide)
  have filled : Adds .icons (sparse ++ [("shape", .table [])])
      (sparse ++ [("shape", .table [("size_name", .text "SIZE")])]) :=
    .nested (by simp [Kind.nests]) name
  refine ⟨by decide +kernel, kept _ _ ?_, ?_⟩
  · exact .tail (.single (within _ _ bare)) (within _ _ filled)
  · have record : Record (withIcons [("cutoff", .integer 128)]) .icons
        (sparse ++ [("cutoff", .integer 128)]) :=
      .listed .top icons rfl (by simp)
    exact refused _ _ _ record (.inl ⟨"cutoff", by simp, by decide⟩)

end PixelTables.Manifest
