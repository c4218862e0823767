import PixelTables.Proofs.Baking.Icons
import PixelTables.Proofs.Disk.Operations

namespace PixelTables

variable {d e : Disk}

theorem Icon.load_eq_reading (d : Disk) (p : Path) (decode : Icon.Decoder) :
    Icon.load d p decode = match d.reading p with
      | none => .error (.image p)
      | some bytes => match decode p bytes with
        | .ok picture => .ok picture
        | .error .malformed => .error (.image p)
        | .error .partialColor => .error (.breakdown (.palette p)) := by
  rw [Icon.load, Disk.reading]
  cases d.readBytes p <;> rfl

theorem Icon.source_of_readings {own : Path} {fallback : Option Path}
    (alike : Disk.ReadsAlike (own :: fallback.toList) d e) :
    Icon.source e own fallback = Icon.source d own fallback := by
  have files : ∀ p ∈ own :: fallback.toList, e.isFile p = d.isFile p := by
    intro p member
    rw [Disk.isFile_eq_reading, Disk.isFile_eq_reading, alike p member]
  simp only [Icon.source, files own List.mem_cons_self]
  cases fallback with
  | none => rfl
  | some path => simp only [files path (by simp)]

theorem Icon.source_subset (d : Disk) (own : Path) (fallback : Option Path) :
    (Icon.source d own fallback).file?.toList ⊆ own :: fallback.toList := by
  unfold Icon.source
  split
  · exact List.cons_subset_cons own (List.nil_subset _)
  · split
    · split
      · exact List.subset_cons_self own _
      · exact List.nil_subset _
    · exact List.nil_subset _

namespace IconProfile

variable {p : IconProfile} {dir : Path} {imaging : Icon.Imaging}

theorem picture_of_readings {x : IconEntry} {source : IconSource}
    (alike : Disk.ReadsAlike source.file?.toList d e) :
    p.picture e x source imaging = p.picture d x source imaging := by
  cases source with
  | missing => rfl
  | own path | fallback path =>
    simp only [picture, Icon.load_eq_reading, alike path List.mem_cons_self]

theorem bakeEntry_of_readings {x : IconEntry}
    (alike : Disk.ReadsAlike (p.candidates dir x) d e) :
    p.bakeEntry e dir x imaging = p.bakeEntry d dir x imaging := by
  have drawn := alike.mono (Icon.source_subset d (ownPath dir x) (p.fallbackPath dir))
  simp only [bakeEntry, Icon.source_of_readings alike, picture_of_readings drawn]

theorem bakeEntries_of_readings {entries : List IconEntry} {t : Table}
    (alike : Disk.ReadsAlike (entries.flatMap (p.candidates dir)) d e) :
    p.bakeEntries e dir entries t imaging = p.bakeEntries d dir entries t imaging := by
  induction entries generalizing t with
  | nil => rfl
  | cons x rest ih =>
    rw [List.flatMap_cons] at alike
    have first := alike.mono (List.subset_append_left _ _)
    have later : ∀ t, p.bakeEntries e dir rest t imaging = p.bakeEntries d dir rest t imaging :=
      fun t => ih (alike.mono (List.subset_append_right _ _))
    simp only [bakeEntries, bakeEntry_of_readings first, later]

end IconProfile

end PixelTables
