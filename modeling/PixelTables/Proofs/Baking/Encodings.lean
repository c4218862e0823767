import PixelTables.Proofs.Baking.ChosenFiles
import PixelTables.Proofs.Baking.Entries
import PixelTables.Proofs.Baking.Slots

namespace PixelTables

structure TableEntry.Alike (R : UInt32 → UInt32 → Prop) (e f : TableEntry) : Prop where
  id : f.id = e.id
  label : f.label = e.label
  status : f.status = e.status
  width : f.cell.width = e.cell.width
  height : f.cell.height = e.cell.height
  words : ∀ x y v w, e.cell.get? x y = some v → f.cell.get? x y = some w → R v w

theorem Raster.words_map {α : Type} {R : UInt32 → UInt32 → Prop} {f g : α → UInt32}
    (related : ∀ a, R (f a) (g a)) (r : Raster α) {x y : Nat} {v w : UInt32}
    (first : (r.map f).get? x y = some v) (second : (r.map g).get? x y = some w) : R v w := by
  rw [get?_map] at first second
  obtain ⟨a, sample, rfl⟩ := Option.map_eq_some_iff.mp first
  rw [sample] at second
  obtain rfl := Option.some.inj second
  exact related a

namespace Table

structure Alike (R : UInt32 → UInt32 → Prop) (t u : Table) : Prop extends SameFrame t u where
  shape : u.shape = t.shape
  defines : u.defines = t.defines
  entries : List.Forall₂ (TableEntry.Alike R) t.entries.toList u.entries.toList

inductive ResultsAlike (R : UInt32 → UInt32 → Prop) : Except Failure Table → Except Failure Table → Prop
  | made {t u : Table} (alike : t.Alike R u) : ResultsAlike R (.ok t) (.ok u)
  | failed (failure : Failure) : ResultsAlike R (.error failure) (.error failure)

variable {R : UInt32 → UInt32 → Prop} {t u : Table}

theorem Alike.of_empty (none : t.entries = #[]) : t.Alike R t where
  toSameFrame := .refl t
  shape := rfl
  defines := rfl
  entries := by
    rw [none]
    exact .nil

theorem Alike.ids (alike : t.Alike R u) : u.ids = t.ids :=
  map_eq_map_of_forall₂ alike.entries fun _ _ entry => entry.id

theorem Alike.grown (alike : t.Alike R u) {e f : TableEntry} (entry : e.Alike R f) :
    Alike R { t with entries := t.entries.push e } { u with entries := u.entries.push f } where
  toSameFrame := ⟨alike.name, alike.stem, alike.cellWidth, alike.cellHeight, alike.format⟩
  shape := alike.shape
  defines := alike.defines
  entries := by
    simp only [Array.toList_push]
    exact List.rel_append alike.entries (.cons entry .nil)

theorem Alike.push (alike : t.Alike R u) {e f : TableEntry} (entry : e.Alike R f) :
    (∃ failure, t.push e = (t, .error failure) ∧ u.push f = (u, .error failure)) ∨
      ∃ i after later, t.push e = (after, .ok i) ∧ u.push f = (later, .ok i) ∧ after.Alike R later := by
  have expected : (u.cellWidth, u.cellHeight) = (t.cellWidth, t.cellHeight) := by
    rw [alike.cellWidth, alike.cellHeight]
  have found : (f.cell.width, f.cell.height) = (e.cell.width, e.cell.height) := by
    rw [entry.width, entry.height]
  have known : f.id ∈ u.ids ↔ e.id ∈ t.ids := by rw [alike.ids, entry.id]
  have size : u.size = t.size := alike.entries.length_eq.symm
  have first := t.answers e
  have second := u.answers f
  by_cases fits : (e.cell.width, e.cell.height) = (t.cellWidth, t.cellHeight)
  · have again : (f.cell.width, f.cell.height) = (u.cellWidth, u.cellHeight) := by
      rw [found, expected, fits]
    by_cases taken : e.id ∈ t.ids
    · left
      refine ⟨_, first.taken fits taken, ?_⟩
      rw [second.taken again (known.mpr taken), alike.name, entry.id]
    · right
      have fresh := second.fits again (mt known.mp taken)
      rw [size] at fresh
      exact ⟨t.size, _, _, first.fits fits taken, fresh, alike.grown entry⟩
  · left
    refine ⟨_, first.wrongSize fits, ?_⟩
    rw [second.wrongSize (by rwa [found, expected]), entry.id, found, expected]

end Table

namespace GlyphProfile

variable {σ : Type} {R : UInt32 → UInt32 → Prop} {p : GlyphProfile} {left right : GlyphEncoding}

def withEncoding (p : GlyphProfile) (encoding : GlyphEncoding) : GlyphProfile := { p with encoding }

section Related

variable (related : ∀ coverage, R (left.word coverage) (right.word coverage))
include related

theorem entry_alike (ch : Char) (picture : Except GlyphError (Raster UInt8)) :
    ((p.withEncoding left).entry ch picture).Alike R ((p.withEncoding right).entry ch picture) := by
  cases picture with
  | error why => exact ⟨rfl, rfl, rfl, rfl, rfl, fun _ _ _ _ => Raster.words_map related _⟩
  | ok coverage => exact ⟨rfl, rfl, rfl, rfl, rfl, fun _ _ _ _ => Raster.words_map related _⟩

/-- The encoding decides the words and nothing else, neither what the source is asked nor what is
    noted. -/
theorem bakeChars_alike (source : GlyphSource σ) {chars : List Char} {t u : Table} (s : σ)
    (alike : t.Alike R u) :
    Table.ResultsAlike R ((p.withEncoding left).bakeChars source chars t s).1
        ((p.withEncoding right).bakeChars source chars u s).1 ∧
      ((p.withEncoding left).bakeChars source chars t s).2 =
        ((p.withEncoding right).bakeChars source chars u s).2 := by
  induction chars generalizing t u s with
  | nil => exact ⟨.made alike, rfl⟩
  | cons ch rest ih =>
    rcases drawn : p.geometry.rasterize source ch s with ⟨picture, later⟩
    have first : (p.withEncoding left).geometry.rasterize source ch s = (picture, later) := drawn
    have second : (p.withEncoding right).geometry.rasterize source ch s = (picture, later) := drawn
    have noted : (p.withEncoding left).notes ch picture = (p.withEncoding right).notes ch picture := rfl
    rcases alike.push (entry_alike (p := p) related ch picture) with
      ⟨failure, refused, again⟩ | ⟨i, after, behind, pushed, again, grown⟩
    · simp only [bakeChars, first, second, refused, again, noted]
      exact ⟨.failed failure, trivial⟩
    · obtain ⟨results, others⟩ := ih later grown
      simp only [bakeChars, first, second, pushed, again, noted, others]
      exact ⟨results, trivial⟩

theorem bake_alike (source : GlyphSource σ) (s : σ) :
    Table.ResultsAlike R ((p.withEncoding left).bake source s).1 ((p.withEncoding right).bake source s).1 ∧
      ((p.withEncoding left).bake source s).2 = ((p.withEncoding right).bake source s).2 :=
  bakeChars_alike related source s (.of_empty rfl)

end Related

theorem rasterize_transcribed (g : Geometry) (source : GlyphSource σ) (ch : Char) (s : σ)
    (calls : List GlyphCall) : ∃ more, g.rasterize source.transcribed ch (s, calls) =
      ((g.rasterize source ch s).1, (g.rasterize source ch s).2, calls ++ more) := by
  cases found : g.canvasSize? with
  | none => exact ⟨[], by simp only [Geometry.rasterize, found, List.append_nil]⟩
  | some canvas =>
    rw [Geometry.rasterize_of_canvas found, Geometry.rasterize_of_canvas found]
    exact ⟨_, rfl⟩

theorem bakeChars_transcribed (p : GlyphProfile) (source : GlyphSource σ) (chars : List Char) (t : Table)
    (s : σ) (calls : List GlyphCall) : ∃ more, p.bakeChars source.transcribed chars t (s, calls) =
      ((p.bakeChars source chars t s).1, (p.bakeChars source chars t s).2.1,
        (p.bakeChars source chars t s).2.2, calls ++ more) := by
  induction chars generalizing t s calls with
  | nil => exact ⟨[], by simp only [bakeChars, List.append_nil]⟩
  | cons ch rest ih =>
    obtain ⟨asked, written⟩ := rasterize_transcribed p.geometry source ch s calls
    simp only [bakeChars, written]
    split
    · exact ⟨asked, rfl⟩
    · rename_i u _ pushed
      obtain ⟨more, later⟩ := ih u (p.geometry.rasterize source ch s).2 (calls ++ asked)
      exact ⟨asked ++ more, by simp only [later, List.append_assoc]⟩

structure Leaves (p : GlyphProfile) (source : GlyphSource σ) (s : σ) (t : Table) (noted : Journal)
    (final : σ) (calls : List GlyphCall) : Prop where
  baked : p.bake source s = (.ok t, noted, final)
  transcript : p.bake source.transcribed (s, []) = (.ok t, noted, final, calls)

theorem leaves (p : GlyphProfile) (source : GlyphSource σ) (s : σ) :
    ∃ t noted final calls, p.Leaves source s t noted final calls := by
  obtain ⟨t, made⟩ := p.bake_ok source s
  obtain ⟨calls, written⟩ := p.bakeChars_transcribed source p.chars p.emptyTable s []
  refine ⟨t, (p.bake source s).2.1, (p.bake source s).2.2, calls, by rw [← made], ?_⟩
  rw [bake, written, ← made]
  rfl

theorem Leaves.unique {source : GlyphSource σ} {s final last : σ} {t u : Table} {noted others : Journal}
    {calls more : List GlyphCall} (first : p.Leaves source s t noted final calls)
    (second : p.Leaves source s u others last more) : t = u := by
  have same := first.baked.symm.trans second.baked
  exact Except.ok.inj (Prod.mk.inj same).1

theorem Leaves.alike (related : ∀ coverage, R (left.word coverage) (right.word coverage))
    {source : GlyphSource σ} {s final : σ} {t : Table} {noted : Journal} {calls : List GlyphCall}
    (first : (p.withEncoding left).Leaves source s t noted final calls) :
    ∃ u, (p.withEncoding right).Leaves source s u noted final calls ∧ t.Alike R u := by
  obtain ⟨u, others, last, more, second⟩ := (p.withEncoding right).leaves source s
  obtain ⟨results, _⟩ := bake_alike (p := p) related source s
  obtain ⟨_, written⟩ := bake_alike (p := p) related source.transcribed (s, [])
  rw [first.baked, second.baked] at results
  rw [first.transcript, second.transcript] at written
  obtain ⟨rfl, rest⟩ := Prod.mk.inj written
  obtain ⟨rfl, rfl⟩ := Prod.mk.inj rest
  cases results with
  | made alike => exact ⟨u, second, alike⟩

end GlyphProfile

namespace IconProfile

variable {R : UInt32 → UInt32 → Prop} {p : IconProfile} {left right : UInt8}

def withCutoff (p : IconProfile) (alphaCutoff : UInt8) : IconProfile := { p with alphaCutoff }

section Related

variable (related : ∀ pixel, R ((IconEncoding.mk left).word pixel) ((IconEncoding.mk right).word pixel))
include related

theorem bakeEntry_alike (d : Disk) (dir : Path) (e : IconEntry) (imaging : Icon.Imaging) :
    (∃ failure noted, (p.withCutoff left).bakeEntry d dir e imaging = (.error failure, noted) ∧
        (p.withCutoff right).bakeEntry d dir e imaging = (.error failure, noted)) ∨
      ∃ entry other noted, (p.withCutoff left).bakeEntry d dir e imaging = (.ok entry, noted) ∧
        (p.withCutoff right).bakeEntry d dir e imaging = (.ok other, noted) ∧ entry.Alike R other := by
  generalize chosen : Icon.source d (ownPath dir e) (p.fallbackPath dir) = source
  -- the picture that is encoded does not depend on the cutoff
  cases drawn : p.picture d e source imaging with
  | error failure =>
    left
    exact ⟨failure, _, bakeEntry_of_error (p := p.withCutoff left) chosen drawn,
      bakeEntry_of_error (p := p.withCutoff right) chosen drawn⟩
  | ok picture =>
    right
    refine ⟨_, _, _, bakeEntry_of_ok (p := p.withCutoff left) chosen drawn,
      bakeEntry_of_ok (p := p.withCutoff right) chosen drawn, ?_⟩
    exact ⟨rfl, rfl, rfl, rfl, rfl, fun _ _ _ _ => Raster.words_map related picture⟩

theorem bakeEntries_alike (d : Disk) (dir : Path) (imaging : Icon.Imaging) {entries : List IconEntry}
    {t u : Table} (alike : t.Alike R u) :
    Table.ResultsAlike R ((p.withCutoff left).bakeEntries d dir entries t imaging).1
        ((p.withCutoff right).bakeEntries d dir entries u imaging).1 ∧
      ((p.withCutoff left).bakeEntries d dir entries t imaging).2 =
        ((p.withCutoff right).bakeEntries d dir entries u imaging).2 := by
  induction entries generalizing t u with
  | nil => exact ⟨.made alike, rfl⟩
  | cons e rest ih =>
    rcases bakeEntry_alike (p := p) related d dir e imaging with
      ⟨failure, noted, first, second⟩ | ⟨entry, other, noted, first, second, same⟩
    · simp only [bakeEntries, first, second]
      exact ⟨.failed failure, trivial⟩
    · rcases alike.push same with ⟨failure, refused, again⟩ | ⟨i, after, behind, pushed, again, grown⟩
      · simp only [bakeEntries, first, second, refused, again]
        exact ⟨.failed failure, trivial⟩
      · obtain ⟨results, others⟩ := ih grown
        simp only [bakeEntries, first, second, pushed, again, others]
        exact ⟨results, trivial⟩

theorem bake_alike (d : Disk) (dir : Path) (imaging : Icon.Imaging) {t : Table} {noted : Journal}
    (baked : (p.withCutoff left).bake d dir imaging = (.ok t, noted)) :
    ∃ u, (p.withCutoff right).bake d dir imaging = (.ok u, noted) ∧ t.Alike R u := by
  have both : Table.ResultsAlike R ((p.withCutoff left).bake d dir imaging).1
      ((p.withCutoff right).bake d dir imaging).1 ∧
        ((p.withCutoff left).bake d dir imaging).2 = ((p.withCutoff right).bake d dir imaging).2 :=
    bakeEntries_alike related d dir imaging (.of_empty rfl)
  rw [baked] at both
  rcases other : (p.withCutoff right).bake d dir imaging with ⟨result, others⟩
  rw [other] at both
  obtain ⟨results, rfl⟩ := both
  cases results with
  | made alike => exact ⟨_, rfl, alike⟩

end Related

end IconProfile

def Thresholded (threshold : UInt8) (grey bit : UInt32) : Prop :=
  (bit = 1 ↔ threshold.toUInt32 ≤ grey) ∧ (bit = 0 ↔ grey < threshold.toUInt32)

def KeptOrHidden (v w : UInt32) : Prop := w = v ∨ w = transparentWord

theorem GlyphEncoding.thresholded_word (threshold coverage : UInt8) :
    Thresholded threshold (intensity.word coverage) ((binary threshold).word coverage) := by
  have reaches : threshold.toUInt32 ≤ coverage.toUInt32 ↔ threshold ≤ coverage := by
    rw [UInt32.le_iff_toNat_le, UInt8.le_iff_toNat_le, UInt8.toNat_toUInt32, UInt8.toNat_toUInt32]
  rw [Thresholded, ← UInt32.not_le]
  simp only [word, reaches]
  split <;> simp_all

theorem GlyphEncoding.word_le_of_le {low high : UInt8} (le : low ≤ high) (coverage : UInt8) :
    (binary high).word coverage ≤ (binary low).word coverage := by
  simp only [word]
  by_cases reached : high ≤ coverage
  · rw [if_pos reached, if_pos (UInt8.le_trans le reached)]
    exact UInt32.le_refl 1
  · rw [if_neg reached]
    exact UInt32.zero_le

theorem IconEncoding.keptOrHidden_word {low high : UInt8} (le : low ≤ high) (pixel : Rgba) :
    KeptOrHidden ((IconEncoding.mk low).word pixel) ((IconEncoding.mk high).word pixel) := by
  by_cases below : pixel.alpha < high
  · exact .inr (if_pos below)
  · have drawn : ¬ pixel.alpha < low := fun less => below (UInt8.lt_of_lt_of_le less le)
    left
    simp only [word, if_neg below, if_neg drawn]

/-- A threshold or a cutoff decides the words of a table and nothing else. -/
theorem encodings_agree {σ : Type} (p : GlyphProfile) (source : GlyphSource σ) (s : σ)
    (q : IconProfile) (d : Disk) (dir : Path) (imaging : Icon.Imaging) :
    (∃ (grey : Table) (bits : UInt8 → Table) (noted : Journal) (final : σ) (calls : List GlyphCall),
      (p.withEncoding .intensity).Leaves source s grey noted final calls ∧ ∀ threshold,
        (p.withEncoding (.binary threshold)).Leaves source s (bits threshold) noted final calls ∧
          grey.Alike (Thresholded threshold) (bits threshold) ∧ ∀ higher, threshold ≤ higher →
            (bits threshold).Alike (· ≥ ·) (bits higher)) ∧
      ∀ low high t noted, low ≤ high → (q.withCutoff low).bake d dir imaging = (.ok t, noted) →
        ∃ u, (q.withCutoff high).bake d dir imaging = (.ok u, noted) ∧ t.Alike KeptOrHidden u := by
  constructor
  · obtain ⟨grey, noted, final, calls, left⟩ := (p.withEncoding .intensity).leaves source s
    choose bits leaves alike using fun threshold =>
      left.alike (GlyphEncoding.thresholded_word threshold)
    refine ⟨grey, bits, noted, final, calls, left, fun threshold => ⟨leaves threshold, alike threshold,
      fun higher le => ?_⟩⟩
    obtain ⟨u, second, fewer⟩ :=
      (leaves threshold).alike (R := (· ≥ ·)) (GlyphEncoding.word_le_of_le le)
    rwa [(leaves higher).unique second]
  · intro low high t noted le baked
    exact IconProfile.bake_alike (IconEncoding.keptOrHidden_word le) d dir imaging baked

theorem exists_made {x : Except Failure Table × Journal} (some : x.1.toOption.isSome = true) :
    ∃ t noted, x = (.ok t, noted) := by
  obtain ⟨t, found⟩ := Option.isSome_iff_exists.mp some
  exact ⟨t, x.2, Prod.ext (toOption_eq_some.mp found) rfl⟩

def faintPixel : Icon.Imaging where
  decode _ _ := .ok (.fill 1 1 ⟨1, 2, 3, 100⟩)
  resizer := .lanczos3

theorem encodings_agree_faint :
    (∃ (grey : Table) (bits : UInt8 → Table) (noted : Journal) (final : Nat) (calls : List GlyphCall),
      (GlyphProfile.threeSigns.withEncoding .intensity).Leaves GlyphProfile.slowStart 0 grey noted final
          calls ∧
        (GlyphProfile.threeSigns.withEncoding (.binary 127)).Leaves GlyphProfile.slowStart 0 (bits 127)
          noted final calls ∧
        grey.Alike (Thresholded 127) (bits 127) ∧ (127 : UInt8) ≤ 128 ∧
        (bits 127).Alike (· ≥ ·) (bits 128)) ∧
      (50 : UInt8) ≤ 128 ∧ ∃ t u noted,
        (IconProfile.scraps.withCutoff 50).bake IconProfile.withScraps ⟨"d"⟩ faintPixel = (.ok t, noted) ∧
        (IconProfile.scraps.withCutoff 128).bake IconProfile.withScraps ⟨"d"⟩ faintPixel = (.ok u, noted) ∧
        t.Alike KeptOrHidden u := by
  obtain ⟨⟨grey, bits, noted, final, calls, left, thresholds⟩, cutoffs⟩ :=
    encodings_agree GlyphProfile.threeSigns GlyphProfile.slowStart 0 IconProfile.scraps
      IconProfile.withScraps ⟨"d"⟩ faintPixel
  obtain ⟨same, below, ordered⟩ := thresholds 127
  obtain ⟨t, written, baked⟩ : ∃ t written, (IconProfile.scraps.withCutoff 50).bake
      IconProfile.withScraps ⟨"d"⟩ faintPixel = (.ok t, written) := exists_made (by decide +kernel)
  obtain ⟨u, again, alike⟩ := cutoffs 50 128 t written (by decide) baked
  exact ⟨⟨grey, bits, noted, final, calls, left, same, below, by decide, ordered 128 (by decide)⟩,
    by decide, t, u, written, baked, again, alike⟩

end PixelTables
