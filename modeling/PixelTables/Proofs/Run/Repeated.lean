import PixelTables.Proofs.Baking.Readings
import PixelTables.Proofs.Publishing.Repeated
import PixelTables.Proofs.Run.Independence

namespace PixelTables

variable {τ σ : Type} {loader : Loader τ σ} {t u : τ} {d e : Disk}

/-- Loaders whose answer depends on the path and what is read there only. -/
def Loader.ReadsFiles (loader : Loader τ σ) : Prop :=
  ∀ d e p t u, e.reading p = d.reading p → (loader.load e p u).1 = (loader.load d p t).1

theorem Font.load_eq_reading (d : Disk) (p : Path) :
    Font.load d p = (d.reading p).elim (.error (.font p .unreadable)) fun bytes =>
      (Font.ofBytes? bytes).elim (.error (.font p .notAFont)) .ok := by
  simp only [Font.load, Disk.reading]
  cases d.readBytes p with
  | error why => rfl
  | ok bytes =>
    simp only [Except.toOption, Option.elim]
    cases Font.ofBytes? bytes <;> rfl

theorem Loader.files_readsFiles : Loader.files.ReadsFiles := by
  intro d e p _ _ same
  simp only [Loader.files, Font.load_eq_reading, same]

theorem Loader.counting_readsFiles : Loader.counting.ReadsFiles := by
  have through : ∀ d p n, (Loader.counting.load d p n).1 =
      (d.reading p).elim (.error (.font p .unreadable)) .ok := by
    intro d p n
    simp only [counting, Disk.reading]
    cases d.readBytes p <;> rfl
  intro d e p _ _ same
  rw [through, through, same]

namespace Config

variable {c : Config}

theorem loadFonts_of_readings (reads : loader.ReadsFiles) {paths : List Path}
    (alike : Disk.ReadsAlike paths d e) :
    (loadFonts loader e paths u).1 = (loadFonts loader d paths t).1 := by
  induction paths generalizing t u with
  | nil => rfl
  | cons p rest ih =>
    have answer := reads d e p t u (alike p List.mem_cons_self)
    rcases first : loader.load d p t with ⟨result, v⟩
    rcases again : loader.load e p u with ⟨result', w⟩
    rw [first, again] at answer
    subst answer
    cases result' with
    | error failure => simp only [loadFonts, first, again]
    | ok font =>
      have later := ih (t := v) (u := w) (alike.mono (List.subset_cons_self p rest))
      simp only [loadFonts, first, again, later]

theorem bakeIcons_of_readings {imaging : Icon.Imaging} {p : IconProfile}
    (alike : Disk.ReadsAlike (p.entries.flatMap (p.candidates (c.resolve p.sourceDir))) d e) :
    c.bakeIcons imaging e p = c.bakeIcons imaging d p := by
  simp only [bakeIcons, IconProfile.bake, IconProfile.bakeEntries_of_readings alike]

theorem bakeAll_of_readings {fonts : List σ} (alike : Disk.ReadsAlike c.sources d e) :
    c.bakeAll loader e fonts = c.bakeAll loader d fonts := by
  have icons : ∀ p ∈ c.icons, c.bakeIcons loader.imaging e p = c.bakeIcons loader.imaging d p := by
    intro p member
    apply bakeIcons_of_readings
    intro path candidate
    exact alike path (List.mem_append_right _ (List.mem_flatMap.mpr ⟨p, member, candidate⟩))
  simp only [bakeAll, inOrder_congr icons]

theorem ready_of_published {as : List Artifact} (ready : c.Ready d)
    (success : (publish as d).2.2 = .ok ()) : c.Ready (publish as d).1 where
  valid := ready.valid
  present dir member := (Publishing.publish_confined success).isDirectory (ready.present dir member)

theorem run_of_readings (reads : loader.ReadsFiles) (ready : c.Ready e) {fonts : List σ}
    {products : List Product} (load : (loadFonts loader d c.fontPaths t).1 = .ok fonts)
    (bake : (c.bakeAll loader d fonts).1 = .ok products)
    (alike : Disk.ReadsAlike c.sources d e) :
    (c.run loader u e).disk = (finish products e).1 ∧
      (c.run loader u e).outcome = (finish products e).2.2 := by
  have fontsAgain : (loadFonts loader e c.fontPaths u).1 = (loadFonts loader d c.fontPaths t).1 :=
    loadFonts_of_readings reads (alike.mono (List.subset_append_left _ _))
  rw [← bakeAll_of_readings alike] at bake
  exact run_of_baked ready (fontsAgain.trans load) bake

theorem separate_outputs {as : List Artifact} (paths : as.map (·.path) = c.outputs.map c.resolve)
    (success : (publish as d).2.2 = .ok ())
    (distinct : (c.outputs.map fun p => d.place (c.resolve p)).Nodup)
    (apart : ∀ p ∈ c.outputs, ∀ q ∈ c.outputs,
      d.place (c.resolve p) ≠ d.place (c.resolve q).staging) : Publishing.Separate d as := by
  have places : ∀ f : Path → Location,
      as.map (fun a => f a.path) = c.outputs.map fun p => f (c.resolve p) := by
    intro f
    have mapped := congrArg (List.map f) paths
    rw [List.map_map, List.map_map] at mapped
    exact mapped
  refine ⟨Publishing.named_of_publish success, ?_, ?_⟩
  · rwa [Publishing.destinations, places d.place]
  · rw [Publishing.destinations, Publishing.stagingPlaces, places d.place,
      places fun p => d.place p.staging]
    simp only [List.mem_map, not_exists, not_and]
    rintro _ ⟨p, first, rfl⟩ q second same
    exact apart p first q second same.symm

/-- A completed run can be repeated without effect, if its outputs are different files, none of
    them where one waits to be moved, and it did not change what its sources read as. -/
theorem run_again (reads : loader.ReadsFiles) {summaries : List Summary}
    (distinct : (c.outputs.map fun p => d.place (c.resolve p)).Nodup)
    (apart : ∀ p ∈ c.outputs, ∀ q ∈ c.outputs,
      d.place (c.resolve p) ≠ d.place (c.resolve q).staging)
    (completed : (c.run loader t d).outcome = .ok (.completed summaries))
    (kept : ∀ p ∈ c.sources, (c.run loader t d).disk.reading p = d.reading p) (u : τ) :
    (c.run loader u (c.run loader t d).disk).outcome = .ok (.completed summaries) ∧
      (c.run loader u (c.run loader t d).disk).disk = (c.run loader t d).disk := by
  have course := run_course c loader t d
  generalize c.run loader t d = result at course completed kept ⊢
  cases course with
  | invalid | unmade | notReady | unloaded | unbaked => cases completed
  | @baked fonts v products ready load bake =>
    obtain ⟨sums, success, last⟩ := finish_completed completed
    have loaded := congrArg Prod.fst load
    have separate := separate_outputs (destinations_of_bake loaded bake) success distinct apart
    obtain ⟨again, still⟩ := Publishing.publish_again separate success
    rw [last] at kept ⊢
    obtain ⟨disk, outcome⟩ :=
      run_of_readings (u := u) reads (ready_of_published ready success) loaded bake kept
    obtain ⟨endDisk, endOutcome⟩ := finish_eq products (publish (products.flatMap (·.artifacts)) d).1
    rw [disk, outcome, endDisk, endOutcome, again, still, sums]
    exact ⟨rfl, rfl⟩

theorem run_again_mixed :
    ∃ summaries, (mixed.run .counting 0 withFont).outcome = .ok (.completed summaries) ∧
      (mixed.run .counting 1 (mixed.run .counting 0 withFont).disk).outcome =
        .ok (.completed summaries) ∧
      (mixed.run .counting 1 (mixed.run .counting 0 withFont).disk).disk =
        (mixed.run .counting 0 withFont).disk := by
  have completed : (mixed.run .counting 0 withFont).outcome =
      .ok (.completed [⟨"g", 1, 0, 1, [⟨"g.h"⟩, ⟨"g.c"⟩]⟩, ⟨"t", 1, 0, 1, [⟨"t.h"⟩, ⟨"t.c"⟩]⟩]) := by
    rw [← toOption_eq_some]
    decide +kernel
  have kept : ∀ p ∈ mixed.sources,
      (mixed.run .counting 0 withFont).disk.reading p = withFont.reading p := by
    decide +kernel
  exact ⟨_, completed, run_again Loader.counting_readsFiles (by decide +kernel)
    (by decide +kernel) completed kept 1⟩

end Config

end PixelTables
