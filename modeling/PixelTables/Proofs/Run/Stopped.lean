import PixelTables.Proofs.Baking.Glyphs
import PixelTables.Proofs.Baking.Icons
import PixelTables.Proofs.Publishing.ReadBack
import PixelTables.Proofs.Run.Course

namespace PixelTables.Config

variable {τ σ : Type}

def fatalGlyph? (loader : Loader τ σ) (p : GlyphProfile) (font : σ) : Option Failure :=
  (p.chars.find? (loader.breaksDown font · p.fontSize)).map fun ch => .breakdown (.glyph ch)

def badPicture? (c : Config) (imaging : Icon.Imaging) (d : Disk) (p : IconProfile) : Option Failure :=
  (p.files d (c.resolve p.sourceDir)).findSome? (Icon.trouble? imaging.decode d)

/-- What keeps the tables of a configuration from being baked: characters come first, and then
    pictures, in their order. -/
def trouble? (c : Config) (loader : Loader τ σ) (d : Disk) (fonts : List σ) : Option Failure :=
  ((c.glyphs.zip fonts).findSome? fun (p, font) => fatalGlyph? loader p font).or
    (c.icons.findSome? (c.badPicture? loader.imaging d))

theorem bakeGlyphs_error {c : Config} {loader : Loader τ σ} {p : GlyphProfile} {font : σ}
    {failure : Failure} : (c.bakeGlyphs loader p font).1 = .error failure ↔
      fatalGlyph? loader p font = some failure := by
  simp only [bakeGlyphs, fatalGlyph?, Bool.not_not]
  cases p.chars.find? (loader.breaksDown font · p.fontSize) with
  | some ch => simp
  | none =>
    obtain ⟨table, baked⟩ := p.bake_ok loader.render font
    simp [baked, Except.map]

theorem bakeIcons_error {c : Config} {imaging : Icon.Imaging} {d : Disk} {p : IconProfile}
    {failure : Failure} (checked : p.check = .ok ()) :
    (c.bakeIcons imaging d p).1 = .error failure ↔ c.badPicture? imaging d p = some failure := by
  rw [badPicture?, ← p.bake_error checked]
  exact map_eq_error

theorem bakeAll_error {c : Config} {loader : Loader τ σ} {d : Disk} {fonts : List σ}
    {failure : Failure} (valid : c.check = .ok ()) :
    (c.bakeAll loader d fonts).1 = .error failure ↔ c.trouble? loader d fonts = some failure := by
  have glyphs : ∀ why, (inOrder (fun (p, font) => c.bakeGlyphs loader p font)
      (c.glyphs.zip fonts)).1 = .error why ↔
        ((c.glyphs.zip fonts).findSome? fun (p, font) => fatalGlyph? loader p font) = some why :=
    fun _ => inOrder_error fun _ _ _ => bakeGlyphs_error
  have icons : ∀ why, (inOrder (c.bakeIcons loader.imaging d) c.icons).1 = .error why ↔
      c.icons.findSome? (c.badPicture? loader.imaging d) = some why :=
    fun _ => inOrder_error fun p member _ => bakeIcons_error (c.icons_checked valid p member)
  rcases first : inOrder (fun (p, font) => c.bakeGlyphs loader p font) (c.glyphs.zip fonts)
    with ⟨result, noted⟩
  rw [first] at glyphs
  cases result with
  | error why => simp [bakeAll, first, trouble?, (glyphs why).mp rfl]
  | ok products =>
    have fine : ((c.glyphs.zip fonts).findSome? fun (p, font) => fatalGlyph? loader p font) =
        none := by
      rw [Option.eq_none_iff_forall_ne_some]
      intro why fatal
      cases (glyphs why).mpr fatal
    rw [trouble?, fine, Option.none_or, ← icons]
    simp only [bakeAll, first]
    exact map_eq_error

theorem trouble?_cases {c : Config} {loader : Loader τ σ} {d : Disk} {fonts : List σ}
    {failure : Failure} (trouble : c.trouble? loader d fonts = some failure) :
    (∃ b, failure = .breakdown b) ∨ ∃ p, failure = .image p := by
  rcases Option.or_eq_some_iff.mp trouble with fatal | ⟨_, bad⟩
  · obtain ⟨pair, _, found⟩ := List.exists_of_findSome?_eq_some fatal
    obtain ⟨ch, _, rfl⟩ := Option.map_eq_some_iff.mp found
    exact .inl ⟨_, rfl⟩
  · obtain ⟨p, _, found⟩ := List.exists_of_findSome?_eq_some bad
    obtain ⟨path, _, unread⟩ := List.exists_of_findSome?_eq_some found
    rcases Icon.trouble?_cases unread with rfl | rfl
    · exact .inr ⟨path, rfl⟩
    · exact .inl ⟨_, rfl⟩

theorem finish_error {products : List Product} {d : Disk} {failure : Failure}
    (failed : (finish products d).2.2 = .error failure) : ∃ p, failure = .write p := by
  rw [(finish_eq products d).2, map_eq_error] at failed
  exact Publishing.publish_error failed

section Outcomes

variable {c : Config} {loader : Loader τ σ} {t : τ} {d : Disk}

theorem ready_of_breakdown {b : Breakdown}
    (broke : (c.run loader t d).outcome = .error (.breakdown b)) : c.Ready d := by
  have course := run_course c loader t d
  generalize c.run loader t d = r at course broke
  cases course with
  | invalid refused =>
    obtain ⟨fault, same⟩ := NamesFault.config c _ refused
    rw [same] at broke
    cases broke
  | unmade | notReady => cases broke
  | unloaded ready | unbaked ready | baked ready => exact ready

theorem breakdown_iff_of_ready {b : Breakdown} (ready : c.Ready d) :
    (c.run loader t d).outcome = .error (.breakdown b) ↔
      (loadFonts loader d c.fontPaths t).1 = .error (.breakdown b) ∨
        ∃ fonts, (loadFonts loader d c.fontPaths t).1 = .ok fonts ∧
          c.trouble? loader d fonts = some (.breakdown b) := by
  rw [run_of_ready ready]
  rcases load : loadFonts loader d c.fontPaths t with ⟨result, u⟩
  cases result with
  | error failure => simp
  | ok fonts =>
    rcases bake : c.bakeAll loader d fonts with ⟨result, noted⟩
    simp only [reduceCtorEq, Except.ok.injEq, false_or, exists_eq_left',
      ← bakeAll_error ready.valid, bake]
    cases result with
    | error failure => simp
    | ok products =>
      simp only [reduceCtorEq, iff_false]
      intro failed
      obtain ⟨p, same⟩ := finish_error failed
      cases same

theorem disk_of_error {failure : Failure} (failed : (c.run loader t d).outcome = .error failure)
    (other : ∀ p, failure ≠ .write p) : (c.run loader t d).disk = d := by
  have course := run_course c loader t d
  generalize c.run loader t d = r at course failed
  cases course with
  | invalid | unloaded | unbaked => rfl
  | @unmade dir => exact absurd (Except.error.inj failed).symm (other dir)
  | notReady => cases failed
  | baked =>
    obtain ⟨p, same⟩ := finish_error failed
    exact absurd same (other p)

def Refuses (failure : Failure) : Prop :=
  (∃ id found expected, failure = .cellSize id found expected) ∨
    ∃ table id, failure = .duplicateId table id

theorem Refuses.ne_other {failure : Failure} (refusal : Refuses failure) :
    (∀ path problem, failure ≠ .config path problem) ∧ (∀ p, failure ≠ .write p) ∧
      (∀ b, failure ≠ .breakdown b) ∧ ∀ p, failure ≠ .image p := by
  rcases refusal with ⟨_, _, _, rfl⟩ | ⟨_, _, rfl⟩ <;> simp

theorem load_of_refusal {failure : Failure} (failed : (c.run loader t d).outcome = .error failure)
    (refusal : Refuses failure) : (loadFonts loader d c.fontPaths t).1 = .error failure := by
  obtain ⟨config, write, breakdown, image⟩ := refusal.ne_other
  have course := run_course c loader t d
  generalize c.run loader t d = r at course failed
  cases course with
  | invalid refused =>
    obtain ⟨fault, same⟩ := NamesFault.config c _ refused
    exact absurd ((Except.error.inj failed).symm.trans same) (config _ _)
  | unmade => exact absurd (Except.error.inj failed).symm (write _)
  | notReady => cases failed
  | unloaded ready load => rw [load, ← Except.error.inj failed]
  | unbaked ready load bake =>
    rcases trouble?_cases ((bakeAll_error ready.valid).mp bake) with ⟨b, same⟩ | ⟨p, same⟩
    · exact absurd ((Except.error.inj failed).symm.trans same) (breakdown b)
    · exact absurd ((Except.error.inj failed).symm.trans same) (image p)
  | baked =>
    obtain ⟨p, same⟩ := finish_error failed
    exact absurd same (write p)

theorem run_of_notReady {dirs : List Path}
    (unready : (c.run loader t d).outcome = .ok (.notReady dirs)) :
    (∀ other : Loader τ σ, c.run other t d = c.run loader t d) ∧
      (c.run loader t d).loader = t ∧ Disk.Confined [] d (c.run loader t d).disk := by
  have course := run_course c loader t d
  generalize c.run loader t d = r at course unready
  cases course with
  | invalid | unmade | unloaded | unbaked => cases unready
  | notReady valid some made =>
    exact ⟨fun other => run_of_made valid some made other t, rfl, makeMissing_confined _ d⟩
  | baked => exact absurd unready (finish_ne_notReady _ _ _)

end Outcomes

structure Unwritten (c : Config) (loader : Loader τ σ) (t : τ) (d : Disk) (r : RunResult τ) :
    Prop where
  untouched : ∀ failure, r.outcome = .error failure → (∀ p, failure ≠ .write p) → r.disk = d
  unasked : ∀ dirs, r.outcome = .ok (.notReady dirs) →
    r.loader = t ∧ ∀ other : Loader τ σ, c.run other t d = r
  directories : ∀ dirs, r.outcome = .ok (.notReady dirs) → ∀ q,
    r.disk.lookup q = d.lookup q ∨ d.lookup q = none ∧ r.disk.lookup q = some .directory
  files : ∀ dirs, r.outcome = .ok (.notReady dirs) →
    (∀ q, r.disk.fileAt q = d.fileAt q) ∧
      ∀ p bytes, d.readBytes p = .ok bytes → r.disk.readBytes p = .ok bytes
  refused : ∀ failure, r.outcome = .error failure → Refuses failure →
    (loadFonts loader d c.fontPaths t).1 = .error failure
  breaks : ∀ b, r.outcome = .error (.breakdown b) ↔ c.Ready d ∧
    ((loadFonts loader d c.fontPaths t).1 = .error (.breakdown b) ∨
      ∃ fonts, (loadFonts loader d c.fontPaths t).1 = .ok fonts ∧
        c.trouble? loader d fonts = some (.breakdown b))

/-- A run writes nothing before everything is baked. What keeps it from that is never a table. -/
theorem run_unwritten (c : Config) (loader : Loader τ σ) (t : τ) (d : Disk) :
    Unwritten c loader t d (c.run loader t d) := by
  refine ⟨fun _ failed other => disk_of_error failed other, ?_, ?_, ?_,
    fun _ failed refusal => load_of_refusal failed refusal, ?_⟩
  · intro dirs unready
    obtain ⟨others, asked, _⟩ := run_of_notReady unready
    exact ⟨asked, others⟩
  · intro dirs unready q
    exact (run_of_notReady unready).2.2.elsewhere q (by simp)
  · intro dirs unready
    have change := (run_of_notReady unready).2.2
    exact ⟨fun q => change.fileAt (by simp), fun p bytes read => change.readBytes (by simp) read⟩
  · intro b
    constructor
    · intro broke
      have ready := ready_of_breakdown broke
      exact ⟨ready, (breakdown_iff_of_ready ready).mp broke⟩
    · rintro ⟨ready, broke⟩
      exact (breakdown_iff_of_ready ready).mpr broke

/-- A picture with colors of a palette of four bytes, which ends within its second color. -/
def partialPalette : ByteArray := ⟨#[
  0x89, 0x50, 0x4E, 0x47, 0x0D, 0x0A, 0x1A, 0x0A, 0x00, 0x00, 0x00, 0x0D, 0x49, 0x48, 0x44, 0x52,
  0x00, 0x00, 0x00, 0x03, 0x00, 0x00, 0x00, 0x02, 0x02, 0x03, 0x00, 0x00, 0x00, 0xE0, 0x1A, 0x8E,
  0x89, 0x00, 0x00, 0x00, 0x04, 0x50, 0x4C, 0x54, 0x45, 0x61, 0x62, 0x63, 0x64, 0x78, 0x65, 0xBC,
  0x77, 0x00, 0x00, 0x00, 0x0C, 0x49, 0x44, 0x41, 0x54, 0x78, 0x9C, 0x63, 0x50, 0x62, 0x98, 0x08,
  0x00, 0x00, 0xFB, 0x00, 0xB4, 0x24, 0x52, 0x7A, 0xC7, 0x00, 0x00, 0x00, 0x00, 0x49, 0x45, 0x4E,
  0x44, 0xAE, 0x42, 0x60, 0x82]⟩

def withPartialPalette : Disk where
  home := ["work"]
  entries := [(["work"], .directory), (["work", "d"], .directory),
    (["work", "d", "0.png"], .file partialPalette)]

def onePicture : Config where
  root := ⟨""⟩
  icons := [
    { name := "t"
      stem := "T"
      sourceDir := ⟨"d"⟩
      fallback := none
      cellSize := 3
      contentSize := 2
      alphaCutoff := 128
      entries := [⟨"I0", ⟨"0.png"⟩, none⟩]
      shape := {}
      declarations := ⟨"o.h"⟩
      data := ⟨"o.c"⟩ }]

theorem run_unwritten_partial_palette :
    (onePicture.run Loader.files () withPartialPalette).outcome =
      .error (.breakdown (.palette ⟨"d/0.png"⟩)) := by
  have valid : onePicture.check = .ok () := by
    rw [← toOption_eq_some]
    decide +kernel
  have present : ∀ dir ∈ onePicture.iconDirectories, withPartialPalette.isDirectory dir = true := by
    decide +kernel
  have trouble : onePicture.trouble? Loader.files withPartialPalette [] =
      some (.breakdown (.palette ⟨"d/0.png"⟩)) := by
    decide +kernel
  exact ((run_unwritten onePicture Loader.files () withPartialPalette).breaks _).mpr
    ⟨⟨valid, present⟩, .inr ⟨[], rfl, trouble⟩⟩

end PixelTables.Config
