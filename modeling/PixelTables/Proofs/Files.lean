import PixelTables.Files

namespace PixelTables.Disk

variable {α β : Type}

theorem acting_bind (step : Disk → Disk × α) (next : α → StateM Disk β) (d : Disk) :
    (acting step >>= next) d = next (step d).2 (step d).1 := rfl

theorem makeChain_files (chain : List Path) : files.makeChain chain = acting (·.makeChain chain) := by
  induction chain with
  | nil => rfl
  | cons p up ih =>
    funext d
    have first : files.makeDirectory p = acting (attempt (·.makeDirectory p)) := rfl
    rw [Files.makeChain, acting, makeChain, ih, first]
    by_cases empty : p.text = ""
    · rw [if_pos empty, if_pos empty]
      rfl
    · rw [if_neg empty, if_neg empty, acting_bind, attempt]
      cases made : d.makeDirectory p with
      | ok e => rfl
      | error why =>
        cases why with
        | notFound =>
          simp only [acting_bind]
          rcases above : d.makeChain up with ⟨e, result⟩
          cases result with
          | error why => rfl
          | ok _ =>
            simp only [acting_bind, attempt]
            cases again : e.makeDirectory p <;> rfl
        | notDirectory | isDirectory | occupied | badName | failed => rfl

theorem makeDirectories_files (p : Path) :
    files.makeDirectories p = acting (·.makeDirectories p) := makeChain_files _

theorem makeRoom_files (a : Artifact) :
    files.makeRoom a = acting (Publishing.makeRoom · a) := by
  funext d
  rw [Files.makeRoom, acting, Publishing.makeRoom]
  cases Publishing.directory? a.path with
  | none => rfl
  | some dir =>
    simp only [makeDirectories_files]
    rw [acting_bind]
    rcases d.makeDirectories dir with ⟨e, result⟩
    cases result <;> rfl

theorem stage_files (as : List Artifact) : files.stage as = acting (Publishing.stage as) := by
  induction as with
  | nil => rfl
  | cons a rest ih =>
    funext d
    rw [Files.stage, acting, Publishing.stage, makeRoom_files, acting_bind]
    rcases Publishing.makeRoom d a with ⟨made, result⟩
    cases result with
    | error failure => rfl
    | ok _ =>
      have write : files.writeFile a.path.staging a.bytes =
        acting (·.writeFile a.path.staging a.bytes) := rfl
      simp only [write]
      rw [acting_bind]
      rcases made.writeFile a.path.staging a.bytes with ⟨wrote, result⟩
      cases result with
      | error why => rfl
      | ok _ => simp only [ih]; rfl

theorem moveBack_files (as : List Artifact) : files.moveBack as = acting (Publishing.moveBack as) := by
  induction as with
  | nil => rfl
  | cons a rest ih =>
    funext d
    have move : files.moveFile a.path.staging a.path =
      acting (attempt (·.moveFile a.path.staging a.path)) := rfl
    rw [Files.moveBack, acting, Publishing.moveBack, move, acting_bind, attempt]
    cases d.moveFile a.path.staging a.path with
    | error why => rfl
    | ok e => simp only [ih]; rfl

theorem cleanUp_files (paths : List Path) : files.cleanUp paths = acting (Publishing.cleanUp paths) := by
  induction paths with
  | nil => rfl
  | cons p rest ih =>
    funext d
    have remove : files.removeFile p = acting (attempt (·.removeFile p)) := rfl
    rw [Files.cleanUp, acting, Publishing.cleanUp, remove, acting_bind, attempt, ih]
    cases d.removeFile p with
    | ok e => rfl
    | error why => cases why <;> rfl

theorem publish_files (as : List Artifact) : files.publish as = acting (publish as) := by
  funext d
  rw [Files.publish, acting, publish, stage_files, acting_bind]
  rcases Publishing.stage as d with ⟨e, staged, result⟩
  cases result with
  | error failure => simp only [cleanUp_files]; rfl
  | ok _ => simp only [moveBack_files, cleanUp_files]; rfl

theorem makeMissing_files (dirs : List Path) :
    files.makeMissing dirs = acting (Config.makeMissing dirs) := by
  induction dirs with
  | nil => rfl
  | cons dir rest ih =>
    funext d
    have look : files.isDirectory dir = acting fun d => (d, d.isDirectory dir) := rfl
    rw [Files.makeMissing, acting, Config.makeMissing, look, acting_bind, ih, makeDirectories_files]
    cases here : d.isDirectory dir with
    | true => rfl
    | false =>
      simp only [Bool.false_eq_true, ↓reduceIte]
      rw [acting_bind]
      rcases d.makeDirectories dir with ⟨e, result⟩
      cases result <;> rfl

theorem finish_files (products : List Product) :
    files.finish products = acting (Config.finish products) := by
  funext d
  rw [Files.finish, acting, Config.finish, publish_files, acting_bind]
  generalize publish (products.flatMap (·.artifacts)) d = published
  obtain ⟨e, noted, result⟩ := published
  cases result <;> rfl

variable {τ σ : Type}

theorem run_files (c : Config) (loader : Loader τ σ) (t : τ) :
    files.run c loader t = acting fun d =>
      let r := c.run loader t d
      (r.disk, r.journal, r.loader, r.outcome) := by
  funext d
  simp only [Files.run, acting, Config.run]
  cases c.check with
  | error failure => rfl
  | ok _ =>
    simp only [makeMissing_files]
    rw [acting_bind]
    rcases Config.makeMissing c.iconDirectories d with ⟨e, noted, result⟩
    cases result with
    | error failure => rfl
    | ok dirs =>
      cases dirs with
      | cons dir dirs => rfl
      | nil =>
        have look : ∀ e : Disk, files.observe c.sources e = (e, e) := fun _ => rfl
        simp only [bind, StateT.bind, look]
        generalize Config.loadFonts loader e c.fontPaths t = loading
        obtain ⟨loaded, u⟩ := loading
        cases loaded with
        | error failure => rfl
        | ok fonts =>
          dsimp only
          generalize c.bakeAll loader e fonts = baking
          obtain ⟨baked, noted⟩ := baking
          cases baked with
          | error failure => rfl
          | ok products => simp only [finish_files]; rfl

/-- The program on a disk of the model is the program of the model. -/
theorem execute_files : files.execute = acting fun d =>
    let e := Command.execute d
    (e.disk, e.journal, e.status) := by
  funext d
  have look : ∀ e : Disk, files.observe [Command.here, Command.manifest] e = (e, e) := fun _ => rfl
  simp only [Files.execute, acting, Command.execute, bind, StateT.bind, look]
  generalize Config.discover d Command.here = discovery
  obtain ⟨found, noted⟩ := discovery
  cases found with
  | error failure => rfl
  | ok config => simp only [run_files]; rfl

end PixelTables.Disk
