import PixelTables.Proofs.Baking.Profiles
import PixelTables.Proofs.Publishing.ReadBack
import PixelTables.Proofs.Run.Course

namespace PixelTables.Config

variable {τ σ : Type}

def outputPairs (c : Config) : List (Path × Path) :=
  c.glyphs.map (fun p => (p.declarations, p.data)) ++ c.icons.map (fun p => (p.declarations, p.data))

theorem outputs_eq_pairs (c : Config) :
    c.outputs = c.outputPairs.flatMap fun pair => [pair.1, pair.2] := by
  simp only [outputs, outputPairs, List.flatMap_append, List.flatMap_map]

theorem loadFonts_length {loader : Loader τ σ} {d : Disk} {paths : List Path} {t : τ}
    {fonts : List σ} (load : (loadFonts loader d paths t).1 = .ok fonts) :
    fonts.length = paths.length := by
  induction paths generalizing t fonts with
  | nil =>
    cases load
    rfl
  | cons p rest ih =>
    rcases first : loader.load d p t with ⟨result, u⟩
    cases result with
    | error failure => simp [loadFonts, first] at load
    | ok font =>
      simp only [loadFonts, first] at load
      obtain ⟨others, later, rfl⟩ := map_eq_ok.mp load
      rw [List.length_cons, List.length_cons, ih later]

def Made (c : Config) (pair : Path × Path) (p : Product) : Prop :=
  ∃ table, p = c.product pair.1 pair.2 table

theorem bakeAll_products {c : Config} {loader : Loader τ σ} {d : Disk} {fonts : List σ}
    {products : List Product} (length : fonts.length = c.glyphs.length)
    (bake : (c.bakeAll loader d fonts).1 = .ok products) :
    List.Forall₂ (fun p product => ∃ t, p.Bakes t ∧ product = c.product p.declarations p.data t)
      c.profiles products := by
  have glyphBaked : ∀ {p : GlyphProfile} {font : σ} {product : Product},
      (c.bakeGlyphs loader p font).1 = .ok product →
        ∃ t, (Profile.glyphs p).Bakes t ∧ product = c.product p.declarations p.data t := by
    intro p font product bake
    simp only [bakeGlyphs] at bake
    split at bake
    · cases bake
    · obtain ⟨t, baked, made⟩ := map_eq_ok.mp bake
      exact ⟨t, .glyphs baked, made.symm⟩
  have iconBaked : ∀ {p : IconProfile} {product : Product}, (c.bakeIcons loader.imaging d p).1 = .ok product →
      ∃ t, (Profile.icons p).Bakes t ∧ product = c.product p.declarations p.data t := by
    intro p product bake
    obtain ⟨t, baked, made⟩ := map_eq_ok.mp bake
    exact ⟨t, .icons baked, made.symm⟩
  unfold bakeAll at bake
  split at bake
  · cases bake
  · rename_i glyphs noted first
    obtain ⟨icons, second, rfl⟩ := map_eq_ok.mp bake
    have glyphsBaked := inOrder_ok (congrArg Prod.fst first)
    have whole : (c.glyphs.zip fonts).map Prod.fst = c.glyphs :=
      List.map_fst_zip (Nat.le_of_eq length.symm)
    apply List.rel_append
    · rw [List.forall₂_map_left_iff, ← whole, List.forall₂_map_left_iff]
      exact glyphsBaked.imp fun _ _ baked => glyphBaked baked
    · rw [List.forall₂_map_left_iff]
      exact (inOrder_ok second).imp fun _ _ baked => iconBaked baked

theorem bakeAll_made {c : Config} {loader : Loader τ σ} {d : Disk} {fonts : List σ}
    {products : List Product} (length : fonts.length = c.glyphs.length)
    (bake : (c.bakeAll loader d fonts).1 = .ok products) :
    List.Forall₂ c.Made c.outputPairs products := by
  have pairs : c.outputPairs = c.profiles.map fun p => (p.declarations, p.data) := by
    rw [outputPairs, profiles, List.map_append, List.map_map, List.map_map]
    rfl
  rw [pairs, List.forall₂_map_left_iff]
  apply (bakeAll_products length bake).imp
  intro p product made
  obtain ⟨t, _, same⟩ := made
  exact ⟨t, same⟩

theorem artifact_paths {c : Config} {pairs : List (Path × Path)} {products : List Product}
    (made : List.Forall₂ c.Made pairs products) :
    (products.flatMap (·.artifacts)).map (·.path) =
      (pairs.flatMap fun pair => [pair.1, pair.2]).map c.resolve := by
  induction made with
  | nil => rfl
  | cons first _ ih =>
    obtain ⟨table, rfl⟩ := first
    simp only [List.flatMap_cons, List.map_append, ih]
    rfl

def ReadBack (products : List Product) (e : Disk) : Prop :=
  ∀ p ∈ products, ∀ a ∈ p.artifacts, e.readBytes a.path = .ok a.bytes

def NothingStaged (products : List Product) (e : Disk) : Prop :=
  ∀ p ∈ products, ∀ a ∈ p.artifacts, e.isFile a.path.staging = false

theorem finish_completed {products : List Product} {d : Disk} {summaries : List Summary}
    (finished : (finish products d).2.2 = .ok (.completed summaries)) :
    summaries = products.map (·.summary) ∧
      (publish (products.flatMap (·.artifacts)) d).2.2 = .ok () ∧
      (finish products d).1 = (publish (products.flatMap (·.artifacts)) d).1 := by
  obtain ⟨disk, outcome⟩ := finish_eq products d
  obtain ⟨_, success, same⟩ := map_eq_ok.mp (outcome.symm.trans finished)
  exact ⟨(Outcome.completed.inj same).symm, success, disk⟩

/-- A completed run has written what it rendered exactly if no output has its place where an output
    declared earlier waits to be moved; it has left nothing else behind exactly if no output has its
    place where any output waits. -/
theorem completed_reads_back_iff {c : Config} {loader : Loader τ σ} {t : τ} {d : Disk}
    {summaries : List Summary}
    (completed : (c.run loader t d).outcome = .ok (.completed summaries)) :
    ∃ fonts products, (loadFonts loader d c.fontPaths t).1 = .ok fonts ∧
      (c.bakeAll loader d fonts).1 = .ok products ∧
      summaries = products.map (·.summary) ∧
      List.Forall₂ c.Made c.outputPairs products ∧
      (ReadBack products (c.run loader t d).disk ↔
        c.outputs.Pairwise fun p q => d.place (c.resolve q) ≠ d.place (c.resolve p).staging) ∧
      (ReadBack products (c.run loader t d).disk ∧ NothingStaged products (c.run loader t d).disk ↔
        ∀ p ∈ c.outputs, ∀ q ∈ c.outputs,
          d.place (c.resolve p) ≠ d.place (c.resolve q).staging) := by
  have course := run_course c loader t d
  generalize c.run loader t d = result at course completed ⊢
  cases course with
  | invalid | unmade | notReady | unloaded | unbaked => cases completed
  | @baked fonts u products ready load bake =>
    obtain ⟨sums, success, last⟩ := finish_completed completed
    have length : fonts.length = c.glyphs.length := by
      rw [loadFonts_length (congrArg Prod.fst load), fontPaths, List.length_map]
    have made := bakeAll_made length bake
    have paths := artifact_paths made
    rw [← outputs_eq_pairs] at paths
    have everywhere : ∀ holds : Artifact → Prop,
        (∀ p ∈ products, ∀ a ∈ p.artifacts, holds a) ↔
          ∀ a ∈ products.flatMap (·.artifacts), holds a := by
      intro holds
      simp only [List.mem_flatMap]
      exact ⟨fun each a ⟨p, present, member⟩ => each p present a member,
        fun each p present a member => each a ⟨p, present, member⟩⟩
    refine ⟨fonts, products, by rw [load], bake, sums, made, ?_, ?_⟩
    · rw [ReadBack, everywhere, last, Publishing.reads_back_iff success,
        ← List.pairwise_map (f := fun a : Artifact => a.path)
          (R := fun p q : Path => d.place q ≠ d.place p.staging),
        paths, List.pairwise_map]
    · rw [ReadBack, NothingStaged, everywhere, everywhere, last,
        Publishing.reads_back_alone_iff success]
      have outputs : ∀ holds : Path → Prop, (∀ a ∈ products.flatMap (·.artifacts), holds a.path) ↔
          ∀ p ∈ c.outputs, holds (c.resolve p) := by
        intro holds
        rw [← List.forall_mem_map (f := fun a : Artifact => a.path), paths, List.forall_mem_map]
      rw [outputs fun p => ∀ b ∈ products.flatMap (·.artifacts), d.place p ≠ d.place b.path.staging]
      apply forall₂_congr
      intro p _
      exact outputs fun q => d.place (c.resolve p) ≠ d.place q.staging

def overlapping : Config where
  root := ⟨""⟩
  icons := [
    { name := "t"
      stem := "T"
      sourceDir := ⟨"d"⟩
      fallback := none
      cellSize := 1
      contentSize := 1
      alphaCutoff := 0
      entries := [⟨"A", ⟨"a.png"⟩, none⟩]
      shape := {}
      declarations := ⟨"o"⟩
      data := ⟨"o.tmp"⟩ }]

def withoutPictures : Disk where
  home := ["work"]
  entries := [(["work"], .directory), (["work", "d"], .directory)]

theorem completed_reads_back_iff_overlapping :
    ∃ summaries products,
      (overlapping.run Loader.files () withoutPictures).outcome = .ok (.completed summaries) ∧
      summaries = products.map (·.summary) ∧
      ¬ ReadBack products (overlapping.run Loader.files () withoutPictures).disk := by
  have completed : (overlapping.run Loader.files () withoutPictures).outcome =
      .ok (.completed [⟨"t", 1, 0, 1, [⟨"o"⟩, ⟨"o.tmp"⟩]⟩]) := by
    rw [← toOption_eq_some]
    decide +kernel
  obtain ⟨_, products, _, _, sums, _, readBack, _⟩ := completed_reads_back_iff completed
  refine ⟨_, products, completed, sums, ?_⟩
  rw [readBack]
  decide +kernel

end PixelTables.Config
