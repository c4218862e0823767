import PixelTables.Proofs.Baking.Icons
import PixelTables.Proofs.Disk.Operations

namespace PixelTables

def Icon.decoderOf (decode : Path → ByteArray → Option (Raster Rgba)) : Icon.Decoder :=
  fun p bytes => match decode p bytes with
    | some picture => .ok picture
    | none => .error .malformed

def Icon.decoded? (decode : Path → ByteArray → Option (Raster Rgba)) (d : Disk) (p : Path) :
    Option (Raster Rgba) :=
  (d.reading p).bind (decode p)

theorem Icon.load_decoderOf (decode : Path → ByteArray → Option (Raster Rgba)) (d : Disk) (p : Path) :
    Icon.load d p (decoderOf decode) = match decoded? decode d p with
      | some picture => .ok picture
      | none => .error (.image p) := by
  simp only [load, decoded?, Disk.reading]
  cases d.readBytes p with
  | error why => rfl
  | ok bytes =>
    simp only [decoderOf, Except.toOption, Option.bind_some]
    cases decode p bytes <;> rfl

namespace IconProfile

/-- The file whose picture an entry shows: its own if that is a regular file, else the fallback if
    that is one. -/
def chosen (p : IconProfile) (d : Disk) (dir : Path) (e : IconEntry) : Option Path :=
  if d.isFile (dir.join e.file) then some (dir.join e.file)
  else (p.fallback.map dir.join).filter (d.isFile ·)

def cellOf (p : IconProfile) (resizer : Image.Resizer) (picture : Option (Raster Rgba))
    (contentSize : UInt32) : Cell :=
  p.encoding.encode (match picture with
    | some source => Icon.rasterize source p.cellSize.toNat contentSize.toNat resizer
    | none => .transparent p.cellSize.toNat p.cellSize.toNat)

theorem chosen_own {p : IconProfile} {d : Disk} {dir : Path} {e : IconEntry}
    (own : d.isFile (dir.join e.file) = true) : p.chosen d dir e = some (dir.join e.file) := by
  rw [chosen, if_pos own]

theorem chosen_other {p : IconProfile} {d : Disk} {dir : Path} {e : IconEntry}
    (absent : d.isFile (dir.join e.file) = false) (path : Path) :
    p.chosen d dir e = some path ↔ p.fallback.map dir.join = some path ∧ d.isFile path = true := by
  rw [chosen, absent]
  exact Option.filter_eq_some_iff

theorem source_chosen (p : IconProfile) (d : Disk) (dir : Path) (e : IconEntry) :
    (d.isFile (dir.join e.file) = true ∧
        Icon.source d (ownPath dir e) (p.fallbackPath dir) = .own (dir.join e.file)) ∨
      (∃ path, d.isFile (dir.join e.file) = false ∧ p.chosen d dir e = some path ∧
        Icon.source d (ownPath dir e) (p.fallbackPath dir) = .fallback path) ∨
      (d.isFile (dir.join e.file) = false ∧ p.chosen d dir e = none ∧
        Icon.source d (ownPath dir e) (p.fallbackPath dir) = .missing) := by
  unfold Icon.source
  cases own : d.isFile (dir.join e.file) with
  | true => exact .inl ⟨rfl, by rw [ownPath, if_pos own]⟩
  | false =>
    right
    rw [chosen, ownPath, own, fallbackPath]
    cases p.fallback.map dir.join with
    | none => exact .inr ⟨rfl, rfl, rfl⟩
    | some path =>
      cases there : d.isFile path with
      | true => exact .inl ⟨path, rfl, by simp [there], by simp [there]⟩
      | false => exact .inr ⟨rfl, by simp [there], by simp [there]⟩

theorem file?_eq_chosen (p : IconProfile) (d : Disk) (dir : Path) (e : IconEntry) :
    p.file? d dir e = p.chosen d dir e := by
  rcases p.source_chosen d dir e with ⟨own, source⟩ | ⟨path, _, other, source⟩ | ⟨_, none, source⟩
  · rw [file?, source, chosen_own own, IconSource.file?]
  · rw [file?, source, other, IconSource.file?]
  · rw [file?, source, none, IconSource.file?]

structure Shows (p : IconProfile) (d : Disk) (dir : Path)
    (decode : Path → ByteArray → Option (Raster Rgba)) (resizer : Image.Resizer) (e : IconEntry)
    (entry : TableEntry) : Prop where
  id : entry.id = p.stem ++ "_" ++ e.id
  rendered : entry.status = .rendered ↔ d.isFile (dir.join e.file) = true
  substituted : ∀ path, entry.status = .substituted path ↔
    d.isFile (dir.join e.file) = false ∧ p.fallback.map dir.join = some path ∧ d.isFile path = true
  degraded : entry.status.isDegraded = true ↔ p.chosen d dir e = none
  cell : entry.cell =
    p.cellOf resizer ((p.chosen d dir e).bind (Icon.decoded? decode d)) (p.contentSizeOf e)

section Shown

variable {p : IconProfile} {d : Disk} {dir : Path}
  {decode : Path → ByteArray → Option (Raster Rgba)} {resizer : Image.Resizer}

theorem picture_cell {e : IconEntry} {source : IconSource} {picture : Raster Rgba}
    (drawn : p.picture d e source ⟨Icon.decoderOf decode, resizer⟩ = .ok picture) :
    p.encoding.encode picture =
      p.cellOf resizer (source.file?.bind (Icon.decoded? decode d)) (p.contentSizeOf e) := by
  cases source with
  | missing =>
    rw [← Except.ok.inj drawn]
    rfl
  | own path | fallback path =>
    simp only [IconProfile.picture, Icon.load_decoderOf, Bind.bind, Except.bind] at drawn
    simp only [IconSource.file?, Option.bind_some]
    cases found : Icon.decoded? decode d path with
    | none =>
      rw [found] at drawn
      cases drawn
    | some image =>
      rw [found] at drawn
      rw [← Except.ok.inj drawn]
      rfl

theorem shows_of_bakeEntry {e : IconEntry} {entry : TableEntry}
    (baked : (p.bakeEntry d dir e ⟨Icon.decoderOf decode, resizer⟩).1 = .ok entry) :
    p.Shows d dir decode resizer e entry := by
  have chosen := p.file?_eq_chosen d dir e
  have choice := p.source_chosen d dir e
  rw [file?] at chosen
  simp only [bakeEntry] at baked
  generalize Icon.source d (ownPath dir e) (p.fallbackPath dir) = source at baked chosen choice
  split at baked
  · cases baked
  · rename_i picture drawn
    have cell := picture_cell drawn
    rw [chosen] at cell
    rw [← Except.ok.inj baked]
    rcases choice with ⟨own, rfl⟩ | ⟨path, absent, other, rfl⟩ | ⟨absent, none, rfl⟩
    · refine ⟨rfl, by simp [status, own], by simp [status, own], ?_, cell⟩
      simp [status, Status.isDegraded, chosen_own own]
    · refine ⟨rfl, by simp [status, absent], fun q => ?_, ?_, cell⟩
      · rw [← chosen_other absent, other]
        simp [status, absent]
      · simp [status, Status.isDegraded, other]
    · refine ⟨rfl, by simp [status, absent], fun q => ?_, ?_, cell⟩
      · rw [← chosen_other absent, none]
        simp [status]
      · simp [status, Status.isDegraded, none]

def undecodable (p : IconProfile) (d : Disk) (dir : Path)
    (decode : Path → ByteArray → Option (Raster Rgba)) (e : IconEntry) : Bool :=
  (p.chosen d dir e).any fun path => (Icon.decoded? decode d path).isNone

theorem undecodable_iff {e : IconEntry} : p.undecodable d dir decode e = true ↔
    ∃ path, p.chosen d dir e = some path ∧ Icon.decoded? decode d path = none := by
  rw [undecodable]
  cases p.chosen d dir e <;> simp

theorem first_trouble (entries : List IconEntry) :
    (entries.filterMap (p.file? d dir)).findSome? (Icon.trouble? (Icon.decoderOf decode) d) =
      ((entries.find? (p.undecodable d dir decode)).bind (p.chosen d dir)).map .image := by
  induction entries with
  | nil => rfl
  | cons e rest ih =>
    rw [List.filterMap_cons, file?_eq_chosen, List.find?_cons]
    cases choice : p.chosen d dir e with
    | none =>
      simp only [undecodable, choice, Option.any_none]
      exact ih
    | some path =>
      have trouble : Icon.trouble? (Icon.decoderOf decode) d path =
          if (Icon.decoded? decode d path).isNone then some (.image path) else none := by
        rw [Icon.trouble?, Icon.load_decoderOf]
        cases Icon.decoded? decode d path <;> rfl
      simp only [undecodable, choice, Option.any_some, List.findSome?_cons, trouble]
      cases Icon.decoded? decode d path with
      | none => simp [choice]
      | some picture => simpa using ih

end Shown

structure FollowsFiles (p : IconProfile) (d : Disk) (dir : Path)
    (decode : Path → ByteArray → Option (Raster Rgba)) (resizer : Image.Resizer) (t : Table) :
    Prop where
  slots : List.Forall₂ (p.Shows d dir decode resizer) p.entries t.entries.toList
  cells : ∀ (i j : Nat) (a b : IconEntry) (x y : TableEntry),
    p.entries[i]? = some a → p.entries[j]? = some b →
    t.entries[i]? = some x → t.entries[j]? = some y →
    p.chosen d dir a = p.chosen d dir b → p.contentSizeOf a = p.contentSizeOf b → x.cell = y.cell

theorem followsFiles {p : IconProfile} {d : Disk} {dir : Path}
    {decode : Path → ByteArray → Option (Raster Rgba)} {resizer : Image.Resizer} {t : Table}
    (slots : List.Forall₂ (p.Shows d dir decode resizer) p.entries t.entries.toList) :
    p.FollowsFiles d dir decode resizer t := by
  refine ⟨slots, fun i j a b x y atI atJ standsI standsJ file size => ?_⟩
  have shown : ∀ (k : Nat) (e : IconEntry) (entry : TableEntry), p.entries[k]? = some e →
      t.entries[k]? = some entry → p.Shows d dir decode resizer e entry := by
    intro k e entry there stands
    rw [← Array.getElem?_toList] at stands
    obtain ⟨inside, rfl⟩ := List.getElem?_eq_some_iff.mp there
    obtain ⟨within, rfl⟩ := List.getElem?_eq_some_iff.mp stands
    exact slots.get inside within
  rw [(shown i a x atI standsI).cell, (shown j b y atJ standsJ).cell, file, size]

/-- A valid profile is baked from the chosen files alone. The first of them that is no picture ends
    the baking and is named; where all are pictures, every entry has its slot and shows its file. -/
theorem bake_by_chosen_files {p : IconProfile} (checked : p.check = .ok ()) (d : Disk) (dir : Path)
    (decode : Path → ByteArray → Option (Raster Rgba)) (resizer : Image.Resizer) :
    ((∃ failure, (p.bake d dir ⟨Icon.decoderOf decode, resizer⟩).1 = .error failure) ↔
        ∃ e ∈ p.entries, ∃ path, p.chosen d dir e = some path ∧ Icon.decoded? decode d path = none) ∧
      (∀ failure, (p.bake d dir ⟨Icon.decoderOf decode, resizer⟩).1 = .error failure →
        ∃ e path, p.entries.find? (p.undecodable d dir decode) = some e ∧
          p.chosen d dir e = some path ∧ failure = .image path) ∧
      ∀ t, (p.bake d dir ⟨Icon.decoderOf decode, resizer⟩).1 = .ok t → p.FollowsFiles d dir decode resizer t := by
  have expects := emptyTable_expects checked
  have stops : ∀ failure, (p.bake d dir ⟨Icon.decoderOf decode, resizer⟩).1 = .error failure ↔
      ∃ e path, p.entries.find? (p.undecodable d dir decode) = some e ∧
        p.chosen d dir e = some path ∧ failure = .image path := by
    intro failure
    rw [bake, bakeEntries_error expects, first_trouble, Option.map_eq_some_iff]
    simp only [Option.bind_eq_some_iff]
    exact ⟨fun ⟨path, ⟨e, first, choice⟩, same⟩ => ⟨e, path, first, choice, same.symm⟩,
      fun ⟨e, path, first, choice, same⟩ => ⟨path, ⟨e, first, choice⟩, same.symm⟩⟩
  refine ⟨⟨?_, ?_⟩, fun failure stopped => (stops failure).mp stopped, ?_⟩
  · rintro ⟨failure, stopped⟩
    obtain ⟨e, _, first, _⟩ := (stops failure).mp stopped
    exact ⟨e, List.mem_of_find?_eq_some first, undecodable_iff.mp (List.find?_some first)⟩
  · rintro ⟨e, member, broken⟩
    have found : (p.entries.find? (p.undecodable d dir decode)).isSome = true :=
      List.find?_isSome.mpr ⟨e, member, undecodable_iff.mpr broken⟩
    obtain ⟨first, is⟩ := Option.isSome_iff_exists.mp found
    obtain ⟨path, choice, _⟩ := undecodable_iff.mp (List.find?_some is)
    exact ⟨.image path, (stops _).mpr ⟨first, path, is, choice, rfl⟩⟩
  · intro t done
    -- a table was made, so no file stopped the baking
    have fine : ∀ path ∈ p.entries.filterMap (p.file? d dir),
        Icon.trouble? (Icon.Imaging.mk (Icon.decoderOf decode) resizer).decode d path = none := by
      apply List.findSome?_eq_none_iff.mp
      rw [Option.eq_none_iff_forall_ne_some]
      intro failure trouble
      rw [bake, (bakeEntries_error expects).mpr trouble] at done
      cases done
    obtain ⟨made, baked, each⟩ := bakeEntries_ok expects fine
    rw [bake, baked] at done
    rw [← Except.ok.inj done]
    apply followsFiles
    rw [Table.entries_extend]
    exact each.imp fun _ _ => shows_of_bakeEntry

def scraps : IconProfile where
  name := "scraps"
  stem := "SCRAP"
  sourceDir := ⟨"d"⟩
  fallback := none
  cellSize := 2
  contentSize := 1
  alphaCutoff := 128
  entries := [⟨"A", ⟨"a.png"⟩, none⟩, ⟨"B", ⟨"b.png"⟩, none⟩, ⟨"C", ⟨"c.txt"⟩, some 2⟩]
  shape := {}
  declarations := ⟨"scraps.h"⟩
  data := ⟨"scraps.c"⟩

def withScraps : Disk where
  home := ["work"]
  entries := [(["work"], .directory), (["work", "d"], .directory),
    (["work", "d", "b.png"], .file "no picture".toUTF8), (["work", "d", "c.txt"], .file "text".toUTF8)]

theorem bake_by_chosen_files_scraps :
    scraps.check = .ok () ∧ ∃ failure,
      (scraps.bake withScraps ⟨"d"⟩ ⟨Icon.decoderOf fun path bytes =>
        (Icon.decode path bytes).toOption, .lanczos3⟩).1 = .error failure ∧ failure = .image ⟨"d/b.png"⟩ := by
  have checked : scraps.check = .ok () := by
    rw [← toOption_eq_some]
    decide +kernel
  obtain ⟨stops, names, _⟩ := bake_by_chosen_files checked withScraps ⟨"d"⟩
    (fun path bytes => (Icon.decode path bytes).toOption) .lanczos3
  have broken : Icon.decoded? (fun path bytes => (Icon.decode path bytes).toOption) withScraps
      ⟨"d/b.png"⟩ = none := by
    rw [← Option.isNone_iff_eq_none]
    decide +kernel
  obtain ⟨failure, stopped⟩ :=
    stops.mpr ⟨⟨"B", ⟨"b.png"⟩, none⟩, by decide, ⟨"d/b.png"⟩, by decide +kernel, broken⟩
  obtain ⟨e, path, first, choice, named⟩ := names failure stopped
  have second : scraps.entries.find? (scraps.undecodable withScraps ⟨"d"⟩ fun path bytes =>
      (Icon.decode path bytes).toOption) = some ⟨"B", ⟨"b.png"⟩, none⟩ := by decide +kernel
  rw [second] at first
  rw [← Option.some.inj first] at choice
  have place : scraps.chosen withScraps ⟨"d"⟩ ⟨"B", ⟨"b.png"⟩, none⟩ = some ⟨"d/b.png"⟩ := by
    decide +kernel
  rw [place] at choice
  exact ⟨checked, failure, stopped, by rw [named, ← Option.some.inj choice]⟩

end IconProfile

end PixelTables
