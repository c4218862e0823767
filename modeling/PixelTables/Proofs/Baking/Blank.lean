import PixelTables.Proofs.Baking.Profiles
import PixelTables.Proofs.Encoding

namespace PixelTables

def Cell.FilledWith (cell : Cell) (w : UInt32) : Prop := ∀ v ∈ cell.samples, v = w

theorem Raster.map_fill {α β : Type} (f : α → β) (width height : Nat) (a : α) :
    (fill width height a).map f = fill width height (f a) := by
  simp [map, fill]

theorem Cell.filledWith_fill {width height : Nat} (columns : 0 < width) (rows : 0 < height)
    (v w : UInt32) : Cell.FilledWith (.fill width height v) w ↔ v = w := by
  have some : width * height ≠ 0 := Nat.mul_ne_zero (by omega) (by omega)
  simp only [FilledWith, Raster.fill, Array.mem_replicate, and_imp]
  exact ⟨fun each => each v some rfl, fun same _ _ member => member.trans same⟩

namespace GlyphProfile

variable {σ : Type} {p : GlyphProfile} {source : GlyphSource σ} {s : σ} {t : Table} {e : TableEntry}

theorem degraded_cell (baked : (p.bake source s).1 = .ok t) (member : e ∈ t.entries)
    (degraded : e.status.isDegraded = true) :
    e.cell = .fill p.cellWidth.toNat p.cellHeight.toNat (p.encoding.word 0) := by
  obtain ⟨ch, _, picture, rfl⟩ := entry_of_bake baked member
  cases picture with
  | ok coverage => cases degraded
  | error why => exact Raster.map_fill _ _ _ _

theorem degraded_filled (checked : p.check = .ok ()) (baked : (p.bake source s).1 = .ok t)
    (member : e ∈ t.entries) (degraded : e.status.isDegraded = true) (w : UInt32) :
    e.cell.FilledWith w ↔ (if p.encoding = .binary 0 then 1 else 0) = w := by
  obtain ⟨⟨width, height⟩, _⟩ := check_eq_ok.mp checked
  rw [degraded_cell baked member degraded, Cell.filledWith_fill, GlyphEncoding.word_zero]
  · exact Nat.pos_of_ne_zero (by simpa [← UInt32.toNat_inj] using width)
  · exact Nat.pos_of_ne_zero (by simpa [← UInt32.toNat_inj] using height)

end GlyphProfile

namespace IconProfile

variable {p : IconProfile} {d : Disk} {dir : Path} {imaging : Icon.Imaging} {t : Table} {e : TableEntry}

theorem degraded_cell (baked : (p.bake d dir imaging).1 = .ok t) (member : e ∈ t.entries)
    (degraded : e.status.isDegraded = true) :
    e.cell = .fill p.cellSize.toNat p.cellSize.toNat (p.encoding.word .transparent) := by
  obtain ⟨entry, _, made⟩ := entry_of_bake baked member
  obtain ⟨picture, drawn, rfl⟩ := bakeEntry_eq made
  generalize Icon.source d (ownPath dir entry) (p.fallbackPath dir) = source at drawn degraded
  cases source with
  | own path | fallback path => cases degraded
  | missing =>
    rw [← Except.ok.inj drawn]
    exact Raster.map_fill _ _ _ _

theorem degraded_filled (checked : p.check = .ok ()) (baked : (p.bake d dir imaging).1 = .ok t)
    (member : e ∈ t.entries) (degraded : e.status.isDegraded = true) (w : UInt32) :
    e.cell.FilledWith w ↔ (if p.alphaCutoff = 0 then 0 else transparentWord) = w := by
  obtain ⟨⟨side, _⟩, _⟩ := check_eq_ok.mp checked
  have some : 0 < p.cellSize.toNat :=
    Nat.pos_of_ne_zero (by simpa [← UInt32.toNat_inj] using side)
  rw [degraded_cell baked member degraded, Cell.filledWith_fill some some,
    IconEncoding.word_transparent]
  rfl

end IconProfile

namespace Profile

def blankWord : Profile → UInt32
  | .glyphs _ => 0
  | .icons _ => transparentWord

def drawnWord : Profile → UInt32
  | .glyphs _ => 1
  | .icons _ => 0

/-- The encoding takes no coverage for ink, or a transparent pixel for a drawn one. -/
def DrawsBlanks : Profile → Prop
  | .glyphs p => p.encoding = .binary 0
  | .icons p => p.alphaCutoff = 0

/-- An entry that is left blank holds the blank word in every place unless the encoding draws it;
    then it holds the drawn word in every place. -/
theorem degraded_blank_iff {p : Profile} {t : Table} {e : TableEntry} (checked : p.check = .ok ())
    (baked : p.Bakes t) (member : e ∈ t.entries) (degraded : e.status.isDegraded = true) :
    (e.cell.FilledWith p.blankWord ↔ ¬ p.DrawsBlanks) ∧
      (e.cell.FilledWith p.drawnWord ↔ p.DrawsBlanks) := by
  cases baked with
  | @glyphs _ p _ _ _ baked =>
    have filled := GlyphProfile.degraded_filled checked baked member degraded
    rw [filled, filled]
    by_cases inked : p.encoding = .binary 0 <;> simp [inked, blankWord, drawnWord, DrawsBlanks]
  | @icons p _ _ _ _ baked =>
    have filled := IconProfile.degraded_filled checked baked member degraded
    have other : transparentWord ≠ 0 := by decide
    rw [filled, filled]
    by_cases drawn : p.alphaCutoff = 0 <;>
      simp [drawn, blankWord, drawnWord, DrawsBlanks, other, other.symm]

end Profile

def GlyphSource.silent : GlyphSource Unit := fun ch _ s => (.error (.unsupported ch), s)

def GlyphProfile.inkedBlanks : GlyphProfile :=
  { standard with
    count := 1
    cellWidth := 2
    cellHeight := 1
    encoding := .binary 0 }

def IconProfile.drawnBlanks : IconProfile where
  name := "t"
  stem := "T"
  sourceDir := ⟨"d"⟩
  fallback := none
  cellSize := 1
  contentSize := 1
  alphaCutoff := 0
  entries := [⟨"A", ⟨"a.png"⟩, none⟩]
  shape := {}
  declarations := ⟨"t.h"⟩
  data := ⟨"t.c"⟩

def withoutFiles : Disk where
  home := ["work"]
  entries := [(["work"], .directory)]

theorem exists_degraded {x : Except Failure Table}
    (some : (x.toOption.any fun t => t.entries.any (·.status.isDegraded)) = true) :
    ∃ t, x = .ok t ∧ ∃ e ∈ t.entries, e.status.isDegraded = true := by
  obtain ⟨t, made, degraded⟩ := (Option.any_eq_true _ _).mp some
  obtain ⟨i, inside, holds⟩ := Array.any_eq_true.mp degraded
  exact ⟨t, toOption_eq_some.mp made, t.entries[i], Array.getElem_mem inside, holds⟩

theorem Profile.degraded_blank_iff_drawn :
    GlyphProfile.inkedBlanks.check = .ok () ∧ IconProfile.drawnBlanks.check = .ok () ∧
      (∃ t, (GlyphProfile.inkedBlanks.bake .silent ()).1 = .ok t ∧ ∃ e ∈ t.entries,
        e.status.isDegraded = true ∧ ¬ e.cell.FilledWith 0 ∧ e.cell.FilledWith 1) ∧
      ∃ t, (IconProfile.drawnBlanks.bake withoutFiles ⟨"d"⟩).1 = .ok t ∧ ∃ e ∈ t.entries,
        e.status.isDegraded = true ∧ ¬ e.cell.FilledWith transparentWord ∧ e.cell.FilledWith 0 := by
  have glyphs : GlyphProfile.inkedBlanks.check = .ok () := by
    rw [← toOption_eq_some]
    decide +kernel
  have icons : IconProfile.drawnBlanks.check = .ok () := by
    rw [← toOption_eq_some]
    decide +kernel
  obtain ⟨inked, glyphTable, e, eMember, eDegraded⟩ :=
    exists_degraded (x := (GlyphProfile.inkedBlanks.bake .silent ()).1) (by decide +kernel)
  obtain ⟨drawn, iconTable, f, fMember, fDegraded⟩ :=
    exists_degraded (x := (IconProfile.drawnBlanks.bake withoutFiles ⟨"d"⟩).1) (by decide +kernel)
  obtain ⟨blank, ink⟩ :=
    degraded_blank_iff (p := .glyphs .inkedBlanks) glyphs (.glyphs glyphTable) eMember eDegraded
  obtain ⟨transparent, black⟩ :=
    degraded_blank_iff (p := .icons .drawnBlanks) icons (.icons iconTable) fMember fDegraded
  have none : (Profile.glyphs .inkedBlanks).DrawsBlanks := rfl
  have cutoff : (Profile.icons .drawnBlanks).DrawsBlanks := rfl
  exact ⟨glyphs, icons,
    ⟨inked, glyphTable, e, eMember, eDegraded, fun filled => blank.mp filled none, ink.mpr none⟩,
    drawn, iconTable, f, fMember, fDegraded, fun filled => transparent.mp filled cutoff,
    black.mpr cutoff⟩

end PixelTables
