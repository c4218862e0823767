import PixelTables.Proofs.Baking.ChosenFiles
import PixelTables.Proofs.Listing.Frames
import PixelTables.Proofs.Listing.RoundTrip
import PixelTables.Proofs.Profile.Names
import PixelTables.Proofs.Profile.WellFormed
import PixelTables.Proofs.Table.History
import Mathlib.Data.List.Perm.Basic

namespace PixelTables

namespace Table

theorem get?_of_mem {t : Table} (distinct : t.ids.Nodup) {e : TableEntry} (member : e ∈ t.entries) :
    t.get? e.id = some e := by
  obtain ⟨i, inside, rfl⟩ := Array.mem_iff_getElem.mp member
  exact get?_of_getElem? distinct (Array.getElem?_eq_getElem inside)

theorem get?_eq_of_perm {t u : Table} (distinct : t.ids.Nodup)
    (reordered : u.entries.toList.Perm t.entries.toList) (id : String) : u.get? id = t.get? id := by
  have ids : u.ids.Perm t.ids := reordered.map _
  by_cases known : id ∈ t.ids
  · obtain ⟨e, member, rfl⟩ := List.mem_map.mp known
    have present := Array.mem_toList_iff.mp (reordered.mem_iff.mpr member)
    rw [get?_of_mem distinct (Array.mem_toList_iff.mp member),
      get?_of_mem (ids.nodup_iff.mpr distinct) present]
  · rw [get?_eq_none known, get?_eq_none (mt ids.mem_iff.mp known)]

end Table

namespace IconProfile

open Listing

/-- The table finds each icon where the profile has it, and nothing else. The listings that can be
    read back give the icons the same numbers and, under their identifiers, their own cells. -/
structure Follows (p : IconProfile) (t : Table) : Prop where
  known : ∀ i e, p.entries[i]? = some e → t.indexOf? (p.index e) = some i
  unknown : ∀ id, id ∉ p.entries.map p.index → t.indexOf? id = none
  numbers : isIdentifier p.name = true → isIdentifier p.stem = true → ∀ header,
    readIndices (Listing.declarations t header) = (p.entries.map p.index).zipIdx
  initialized : isIdentifier p.name = true → isIdentifier p.stem = true → ∀ header, Plain t header →
    ∃ rows, read? p.shape.layout p.cellSize.toNat (Listing.data t header) = some rows ∧
      rows.map (·.id) = p.entries.map p.index ∧ ∀ e ∈ p.entries, ∃ entry,
        t.get? (p.index e) = some entry ∧ rows.find? (·.id = p.index e) = some (listed entry)

def enumerators (p : IconProfile) : String :=
  String.join (p.entries.mapIdx fun i e => s!"    {p.index e} = {i},\n")

def initializers (p : IconProfile) (body : IconEntry → String) : String :=
  String.join (p.entries.mapIdx fun i e => s!"    [{p.index e}] = \x7b // {i}: {e.file.text}" ++ body e)

/-- Only in the order of the icons and in their numbers the listings of two tables differ. -/
structure ListedAlike (p q : IconProfile) (t u : Table) (header : String) : Prop where
  declarations : ∃ front back, Listing.declarations t header = front ++ p.enumerators ++ back ∧
    Listing.declarations u header = front ++ q.enumerators ++ back
  data : ∃ front body back, Listing.data t header = front ++ p.initializers body ++ back ∧
    Listing.data u header = front ++ q.initializers body ++ back

def withEntries (p : IconProfile) (entries : List IconEntry) : IconProfile := { p with entries }

section Reordered

variable {p : IconProfile} {entries : List IconEntry}

theorem WellFormed.withEntries (formed : p.WellFormed) (reordered : entries.Perm p.entries) :
    (p.withEntries entries).WellFormed where
  cell := formed.cell
  entries none := formed.entries (List.nil_perm.mp (none ▸ reordered))
  ids e member := formed.ids e (reordered.mem_iff.mp member)
  distinct := (reordered.map _).nodup_iff.mpr formed.distinct
  contents e member := formed.contents e (reordered.mem_iff.mp member)
  shape := { formed.shape with
    free := fun suffix member => formed.shape.free suffix ((reordered.map _).mem_iff.mp member) }

theorem check_withEntries (checked : p.check = .ok ()) (reordered : entries.Perm p.entries) :
    (p.withEntries entries).check = .ok () :=
  (check_iff_wellFormed _).mpr ((p.check_iff_wellFormed.mp checked).withEntries reordered)

end Reordered

section Baked

variable {p : IconProfile} {d : Disk} {dir : Path} {imaging : Icon.Imaging} {t : Table}

theorem bakes_iff (checked : p.check = .ok ()) : (∃ t, (p.bake d dir imaging).1 = .ok t) ↔
    ∀ e ∈ p.entries, ∃ entry, (p.bakeEntry d dir e imaging).1 = .ok entry := by
  constructor
  · rintro ⟨t, baked⟩ e member
    obtain ⟨entry, _, made⟩ := exists_entry_of_bake baked member
    exact ⟨entry, made⟩
  · intro each
    have fine : ∀ path ∈ p.entries.filterMap (p.file? d dir), Icon.trouble? imaging.decode d path = none := by
      intro path member
      obtain ⟨e, present, chosen⟩ := List.mem_filterMap.mp member
      obtain ⟨entry, made⟩ := each e present
      obtain ⟨picture, drawn, _⟩ := bakeEntry_eq made
      rw [Option.eq_none_iff_forall_ne_some]
      intro failure trouble
      have broken : (p.file? d dir e).bind (Icon.trouble? imaging.decode d) = some failure := by
        rw [chosen, Option.bind_some, trouble]
      rw [picture_error.mpr broken] at drawn
      cases drawn
    obtain ⟨made, baked, _⟩ := bakeEntries_ok (emptyTable_expects checked) fine
    exact ⟨_, baked⟩

theorem built_of_bakeEntries {entries : List IconEntry} {u : Table} (built : t.Built)
    (baked : (p.bakeEntries d dir entries t imaging).1 = .ok u) : u.Built := by
  induction entries generalizing t with
  | nil => rwa [← Except.ok.inj baked]
  | cons e rest ih =>
    simp only [bakeEntries] at baked
    split at baked
    · cases baked
    · split at baked
      · cases baked
      · rename_i pushed
        exact ih (built.push pushed) baked

theorem built_of_bake (baked : (p.bake d dir imaging).1 = .ok t) : t.Built :=
  built_of_bakeEntries (((Table.Built.new _ _ _ _ _).withShape p.shape).define _ _) baked

theorem declarable_of_bake (checked : p.check = .ok ()) (baked : (p.bake d dir imaging).1 = .ok t)
    (name : isIdentifier p.name = true) (stem : isIdentifier p.stem = true) : Declarable t := by
  have bakes : (Profile.icons p).Bakes t := .icons baked
  exact bakes.declarable (Profile.wellNamed_of_checked checked name stem)

theorem read?_of_bake (checked : p.check = .ok ()) (baked : (p.bake d dir imaging).1 = .ok t)
    (declarable : Declarable t) {header : String} (plain : Plain t header) :
    read? p.shape.layout p.cellSize.toNat (Listing.data t header) =
      some (t.entries.toList.map listed) := by
  have columns := (p.check_iff_wellFormed.mp checked).cell.1
  have built := built_of_bake baked
  obtain ⟨made, rfl, _⟩ := bake_entries baked
  exact read?_data built columns declarable.ids plain

theorem follows (checked : p.check = .ok ()) (baked : (p.bake d dir imaging).1 = .ok t) : p.Follows t := by
  have distinct := (built_of_bake baked).sound.distinct
  have ids := ids_of_bake baked
  constructor
  · intro i e stands
    have place : t.ids[i]? = some (p.index e) := by rw [ids, List.getElem?_map, stands, Option.map_some]
    rw [Table.ids, List.getElem?_map, Array.getElem?_toList] at place
    obtain ⟨entry, stands, id⟩ := Option.map_eq_some_iff.mp place
    rw [← id]
    exact Table.indexOf?_of_getElem? distinct stands
  · intro id absent
    exact Table.indexOf?_eq_none.mpr (ids ▸ absent)
  · intro name stem header
    rw [(declarable_of_bake checked baked name stem).readIndices, ids]
  · intro name stem header plain
    have declarable := declarable_of_bake checked baked name stem
    refine ⟨_, read?_of_bake checked baked declarable plain, ?_, ?_⟩
    · rw [← ids, List.map_map]
      rfl
    · intro e member
      have known : p.index e ∈ t.ids := ids ▸ List.mem_map_of_mem member
      obtain ⟨entry, present, id⟩ := List.mem_map.mp known
      rw [← id]
      exact ⟨entry, Table.get?_of_mem distinct (Array.mem_toList_iff.mp present),
        find?_listed distinct present⟩

variable {made : List TableEntry}

theorem entries_emptyTable (p : IconProfile) (made : List TableEntry) :
    (p.emptyTable.extend made).entries.toList = made := by
  rw [Table.entries_extend]
  rfl

theorem declarations_of_made
    (each : List.Forall₂ (fun e entry => (p.bakeEntry d dir e imaging).1 = .ok entry) p.entries made)
    (header : String) : Listing.declarations (p.emptyTable.extend made) header =
      declarationsFront (p.emptyTable.extend made) header ++ p.enumerators ++
        declarationsBack p.emptyTable := by
  have lines : made.mapIdx (fun i entry => indexLine i entry.id) =
      p.entries.mapIdx fun i e => s!"    {p.index e} = {i},\n" := by
    apply mapIdx_eq_mapIdx_of_forall₂ each
    intro i e entry baked
    obtain ⟨_, _, rfl⟩ := bakeEntry_eq baked
    rfl
  rw [declarations_eq, entries_emptyTable, lines, enumerators]
  rfl

def initializerBody (p : IconProfile) (d : Disk) (dir : Path) (imaging : Icon.Imaging) (e : IconEntry) :
    String :=
  match (p.bakeEntry d dir e imaging).1 with
  | .ok entry => entryBody p.emptyTable entry
  | .error _ => ""

theorem data_of_made
    (each : List.Forall₂ (fun e entry => (p.bakeEntry d dir e imaging).1 = .ok entry) p.entries made)
    (header : String) : Listing.data (p.emptyTable.extend made) header =
      dataFront p.emptyTable header ++ p.initializers (p.initializerBody d dir imaging) ++ "\x7d;\n" := by
  have lines : made.mapIdx (fun i entry => entryOpen i entry ++ entryBody p.emptyTable entry) =
      p.entries.mapIdx fun i e => s!"    [{p.index e}] = \x7b // {i}: {e.file.text}" ++
        p.initializerBody d dir imaging e := by
    apply mapIdx_eq_mapIdx_of_forall₂ each
    intro i e entry baked
    rw [initializerBody, baked]
    obtain ⟨_, _, rfl⟩ := bakeEntry_eq baked
    rfl
  have body : entryBody (p.emptyTable.extend made) = entryBody p.emptyTable := rfl
  rw [data_eq, entries_emptyTable, body, lines, initializers]
  rfl

end Baked

section Alike

variable {p : IconProfile} {entries : List IconEntry} {d : Disk} {dir : Path} {imaging : Icon.Imaging}
  {t u : Table} (reordered : entries.Perm p.entries) (baked : (p.bake d dir imaging).1 = .ok t)
  (rebaked : ((p.withEntries entries).bake d dir imaging).1 = .ok u)
include reordered baked rebaked

theorem entries_perm : u.entries.toList.Perm t.entries.toList := by
  obtain ⟨made, rfl, each⟩ := bake_entries baked
  obtain ⟨remade, rfl, again⟩ := bake_entries rebaked
  rw [entries_emptyTable, entries_emptyTable]
  have same : Relator.RightUnique fun e entry => (p.bakeEntry d dir e imaging).1 = .ok entry :=
    fun _ _ _ first second => Except.ok.inj (first.symm.trans second)
  exact List.rel_perm_imp same again each reordered

theorem listedAlike (header : String) : p.ListedAlike (p.withEntries entries) t u header := by
  obtain ⟨made, rfl, each⟩ := bake_entries baked
  obtain ⟨remade, rfl, again⟩ := bake_entries rebaked
  have size : remade.length = made.length := by
    rw [← each.length_eq, ← again.length_eq, ← reordered.length_eq]
    rfl
  constructor
  · refine ⟨_, _, declarations_of_made each header, ?_⟩
    rw [← declarationsFront_extend _ size]
    exact declarations_of_made again header
  · exact ⟨_, _, _, data_of_made each header, data_of_made again header⟩

end Alike

/-- In another order the icons of a profile are accepted and baked as well, each to the same entry,
    and only their numbers follow the order. -/
theorem bake_reordered {p : IconProfile} {entries : List IconEntry} (checked : p.check = .ok ())
    (reordered : entries.Perm p.entries) (d : Disk) (dir : Path) (imaging : Icon.Imaging) :
    (p.withEntries entries).check = .ok () ∧
      ((∃ t, (p.bake d dir imaging).1 = .ok t) ↔
        ∃ u, ((p.withEntries entries).bake d dir imaging).1 = .ok u) ∧
      ∀ t u, (p.bake d dir imaging).1 = .ok t → ((p.withEntries entries).bake d dir imaging).1 = .ok u →
        (∀ id, u.get? id = t.get? id) ∧ p.Follows t ∧ (p.withEntries entries).Follows u ∧
          ∀ header, p.ListedAlike (p.withEntries entries) t u header := by
  have rechecked := check_withEntries checked reordered
  refine ⟨rechecked, ?_, ?_⟩
  · rw [bakes_iff checked, bakes_iff rechecked]
    exact forall_congr' fun e => imp_congr_left reordered.mem_iff.symm
  · intro t u baked rebaked
    have distinct := (built_of_bake baked).sound.distinct
    exact ⟨Table.get?_eq_of_perm distinct (entries_perm reordered baked rebaked), follows checked baked,
      follows rechecked rebaked, listedAlike reordered baked rebaked⟩

def onePixel : Icon.Imaging where
  decode _ _ := .ok (.fill 1 1 ⟨1, 2, 3, 255⟩)
  resizer := .lanczos3

theorem bake_reordered_scraps :
    scraps.check = .ok () ∧ (scraps.withEntries scraps.entries.reverse).check = .ok () ∧
      ∃ t u, (scraps.bake withScraps ⟨"d"⟩ onePixel).1 = .ok t ∧
        ((scraps.withEntries scraps.entries.reverse).bake withScraps ⟨"d"⟩ onePixel).1 = .ok u ∧
        u.get? "SCRAP_B" = t.get? "SCRAP_B" ∧
        t.indexOf? "SCRAP_A" = some 0 ∧ u.indexOf? "SCRAP_A" = some 2 ∧
        readIndices (Listing.declarations u "scraps.h") =
          [("SCRAP_C", 0), ("SCRAP_B", 1), ("SCRAP_A", 2)] := by
  have checked : scraps.check = .ok () := by
    rw [← toOption_eq_some]
    decide +kernel
  have drawn : ((scraps.bake withScraps ⟨"d"⟩ onePixel).1.toOption).isSome = true := by decide +kernel
  obtain ⟨t, found⟩ := Option.isSome_iff_exists.mp drawn
  have baked := toOption_eq_some.mp found
  obtain ⟨rechecked, succeeds, agree⟩ :=
    bake_reordered checked (List.reverse_perm _) withScraps ⟨"d"⟩ onePixel
  obtain ⟨u, rebaked⟩ := succeeds.mp ⟨t, baked⟩
  obtain ⟨same, before, behind, _⟩ := agree t u baked rebaked
  exact ⟨checked, rechecked, t, u, baked, rebaked, same _, before.known 0 ⟨"A", ⟨"a.png"⟩, none⟩ rfl,
    behind.known 2 ⟨"A", ⟨"a.png"⟩, none⟩ rfl, behind.numbers (by decide) (by decide) _⟩

end IconProfile

end PixelTables
