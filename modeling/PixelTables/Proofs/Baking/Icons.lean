import PixelTables.Baking.Icons
import PixelTables.Proofs.Profile.Checked
import PixelTables.Proofs.Table.Push
import Mathlib.Data.List.Forall2

namespace PixelTables

def IconSource.file? : IconSource → Option Path
  | .own path | .fallback path => some path
  | .missing => none

def Icon.trouble? (decode : Icon.Decoder) (d : Disk) (p : Path) : Option Failure :=
  match Icon.load d p decode with
  | .ok _ => none
  | .error failure => some failure

theorem Icon.trouble?_cases {decode : Icon.Decoder} {d : Disk} {p : Path} {failure : Failure}
    (trouble : Icon.trouble? decode d p = some failure) :
    failure = .image p ∨ failure = .breakdown (.palette p) := by
  simp only [trouble?] at trouble
  split at trouble
  · cases trouble
  · rename_i why failed
    rw [← Option.some.inj trouble]
    simp only [load] at failed
    split at failed
    · exact .inl (Except.error.inj failed).symm
    · split at failed
      · cases failed
      · exact .inl (Except.error.inj failed).symm
      · exact .inr (Except.error.inj failed).symm

namespace IconProfile

def file? (p : IconProfile) (d : Disk) (dir : Path) (e : IconEntry) : Option Path :=
  (Icon.source d (ownPath dir e) (p.fallbackPath dir)).file?

def files (p : IconProfile) (d : Disk) (dir : Path) : List Path := p.entries.filterMap (p.file? d dir)

section Decoding

variable {p : IconProfile} {d : Disk} {imaging : Icon.Imaging}

theorem picture_size {e : IconEntry} {source : IconSource} {picture : Raster Rgba}
    (drawn : p.picture d e source imaging = .ok picture) :
    picture.width = p.cellSize.toNat ∧ picture.height = p.cellSize.toNat := by
  cases source with
  | missing =>
    rw [← Except.ok.inj drawn]
    exact ⟨rfl, rfl⟩
  | own path | fallback path =>
    simp only [IconProfile.picture, Bind.bind, Except.bind] at drawn
    split at drawn
    · cases drawn
    · rw [← Except.ok.inj drawn]
      exact ⟨rfl, rfl⟩

theorem picture_error {e : IconEntry} {source : IconSource} {failure : Failure} :
    p.picture d e source imaging = .error failure ↔
      source.file?.bind (Icon.trouble? imaging.decode d) = some failure := by
  cases source with
  | missing => simp [IconProfile.picture, IconSource.file?]
  | own path | fallback path =>
    simp only [IconProfile.picture, IconSource.file?, Icon.trouble?, Option.bind_some, Bind.bind,
      Except.bind]
    cases Icon.load d path imaging.decode <;> simp

variable {dir : Path} {t : Table}

section Entry

variable {e : IconEntry} {source : IconSource}
  (chosen : Icon.source d (ownPath dir e) (p.fallbackPath dir) = source)
include chosen

theorem bakeEntry_of_error {failure : Failure} (failed : p.picture d e source imaging = .error failure) :
    p.bakeEntry d dir e imaging = (.error failure, p.warning dir e source) := by
  simp only [bakeEntry, chosen, failed]

theorem bakeEntry_of_ok {picture : Raster Rgba} (drawn : p.picture d e source imaging = .ok picture) :
    p.bakeEntry d dir e imaging =
      (.ok { id := p.index e
             label := e.file.text
             cell := p.encoding.encode picture
             status := status dir e source },
        p.warning dir e source ++
          [.detail s!"{p.index e}: baked from {(status dir e source).quoted}"]) := by
  simp only [bakeEntry, chosen, drawn]

end Entry

theorem bakeEntry_cases (d : Disk) (dir : Path) (imaging : Icon.Imaging) {e : IconEntry}
    {coming : List String}
    (expects : t.Expects p.cellSize.toNat p.cellSize.toNat (p.index e :: coming)) :
    (∃ failure, (p.bakeEntry d dir e imaging).1 = .error failure ∧
        (p.file? d dir e).bind (Icon.trouble? imaging.decode d) = some failure) ∨
      ∃ entry u, (p.bakeEntry d dir e imaging).1 = .ok entry ∧ t.push entry = (u, .ok t.size) ∧
        (p.file? d dir e).bind (Icon.trouble? imaging.decode d) = none ∧
        (∀ more, u.extend more = t.extend (entry :: more)) ∧
        u.Expects p.cellSize.toNat p.cellSize.toNat coming := by
  rw [file?]
  generalize found : Icon.source d (ownPath dir e) (p.fallbackPath dir) = source
  cases drawn : p.picture d e source imaging with
  | error failure =>
    left
    exact ⟨failure, by rw [bakeEntry_of_error found drawn], picture_error.mp drawn⟩
  | ok picture =>
    right
    obtain ⟨width, height⟩ := picture_size drawn
    have fine : source.file?.bind (Icon.trouble? imaging.decode d) = none := by
      rw [Option.eq_none_iff_forall_ne_some]
      intro failure trouble
      rw [picture_error.mpr trouble] at drawn
      cases drawn
    obtain ⟨u, pushed, grown, room⟩ := Table.Expects.push
      (e := ⟨p.index e, e.file.text, p.encoding.encode picture, status dir e source⟩)
      expects width height
    exact ⟨_, u, by rw [bakeEntry_of_ok found drawn], pushed, fine, grown, room⟩

theorem bakeEntries_error {entries : List IconEntry} {failure : Failure}
    (expects : t.Expects p.cellSize.toNat p.cellSize.toNat (entries.map p.index)) :
    (p.bakeEntries d dir entries t imaging).1 = .error failure ↔
      (entries.filterMap (p.file? d dir)).findSome? (Icon.trouble? imaging.decode d) = some failure := by
  induction entries generalizing t with
  | nil => simp [bakeEntries]
  | cons e rest ih =>
    have first : ((e :: rest).filterMap (p.file? d dir)).findSome? (Icon.trouble? imaging.decode d) =
        ((p.file? d dir e).bind (Icon.trouble? imaging.decode d)).or
          ((rest.filterMap (p.file? d dir)).findSome? (Icon.trouble? imaging.decode d)) := by
      rw [List.filterMap_cons]
      cases p.file? d dir e with
      | none => simp
      | some path =>
        simp only [List.findSome?_cons, Option.bind_some]
        cases Icon.trouble? imaging.decode d path <;> rfl
    rw [first]
    rcases bakeEntry_cases d dir imaging expects with
      ⟨why, stopped, trouble⟩ | ⟨entry, u, baked, pushed, fine, _, room⟩
    · simp only [bakeEntries, stopped, trouble, Option.some_or, Except.error.injEq,
        Option.some.injEq]
    · simp only [bakeEntries, baked, pushed, fine, Option.none_or]
      exact ih room

theorem bakeEntries_ok {entries : List IconEntry}
    (expects : t.Expects p.cellSize.toNat p.cellSize.toNat (entries.map p.index))
    (fine : ∀ path ∈ entries.filterMap (p.file? d dir), Icon.trouble? imaging.decode d path = none) :
    ∃ made, (p.bakeEntries d dir entries t imaging).1 = .ok (t.extend made) ∧
      List.Forall₂ (fun e entry => (p.bakeEntry d dir e imaging).1 = .ok entry) entries made := by
  induction entries generalizing t with
  | nil => exact ⟨[], by simp [bakeEntries], .nil⟩
  | cons e rest ih =>
    rcases bakeEntry_cases d dir imaging expects with
      ⟨why, _, trouble⟩ | ⟨entry, u, baked, pushed, _, grown, room⟩
    · obtain ⟨path, chosen, broken⟩ := Option.bind_eq_some_iff.mp trouble
      rw [fine path (List.mem_filterMap.mpr ⟨e, by simp, chosen⟩)] at broken
      cases broken
    · have later : ∀ path ∈ rest.filterMap (p.file? d dir),
          Icon.trouble? imaging.decode d path = none := by
        intro path member
        obtain ⟨other, present, chosen⟩ := List.mem_filterMap.mp member
        exact fine path (List.mem_filterMap.mpr ⟨other, by simp [present], chosen⟩)
      obtain ⟨made, done, each⟩ := ih room later
      refine ⟨entry :: made, ?_, .cons baked each⟩
      simp only [bakeEntries, baked, pushed, done, grown]

theorem emptyTable_expects (checked : p.check = .ok ()) :
    p.emptyTable.Expects p.cellSize.toNat p.cellSize.toNat (p.entries.map p.index) :=
  ⟨rfl, rfl, indices_nodup checked⟩

end Decoding

theorem bake_error {p : IconProfile} {d : Disk} {dir : Path} {imaging : Icon.Imaging}
    {failure : Failure} (checked : p.check = .ok ()) :
    (p.bake d dir imaging).1 = .error failure ↔
      (p.files d dir).findSome? (Icon.trouble? imaging.decode d) = some failure :=
  bakeEntries_error (emptyTable_expects checked)

end IconProfile

end PixelTables
