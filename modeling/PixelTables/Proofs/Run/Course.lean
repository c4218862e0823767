import PixelTables.Proofs.Disk.Progress
import PixelTables.Run
import Mathlib.Data.List.Forall2

namespace PixelTables.Config

section Steps

variable {α β : Type} {step : α → Except Failure β × Journal}

theorem inOrder_ok {as : List α} {bs : List β} (run : (inOrder step as).1 = .ok bs) :
    List.Forall₂ (fun a b => (step a).1 = .ok b) as bs := by
  induction as generalizing bs with
  | nil =>
    cases run
    exact .nil
  | cons a as ih =>
    rcases outcome : step a with ⟨result, noted⟩
    cases result with
    | error failure => simp [inOrder, outcome] at run
    | ok b =>
      simp only [inOrder, outcome] at run
      obtain ⟨later, rest, rfl⟩ := map_eq_ok.mp run
      exact .cons (by rw [outcome]) (ih rest)

theorem inOrder_eq_ok {as : List α} {bs : List β} : (inOrder step as).1 = .ok bs ↔
      List.Forall₂ (fun a b => (step a).1 = .ok b) as bs := by
  refine ⟨inOrder_ok, fun each => ?_⟩
  induction each with
  | nil => rfl
  | @cons a b as bs first _ ih =>
    rcases outcome : step a with ⟨result, noted⟩
    rw [outcome] at first
    subst first
    simp only [inOrder, outcome]
    rw [ih]
    rfl

theorem inOrder_congr {other : α → Except Failure β × Journal} {as : List α}
    (same : ∀ a ∈ as, other a = step a) : inOrder other as = inOrder step as := by
  induction as with
  | nil => rfl
  | cons a as ih =>
    have later := ih fun b member => same b (List.mem_cons_of_mem a member)
    simp only [inOrder, same a List.mem_cons_self, later]

theorem inOrder_error {as : List α} {trouble : α → Option Failure} {failure : Failure}
    (known : ∀ a ∈ as, ∀ why, (step a).1 = .error why ↔ trouble a = some why) :
    (inOrder step as).1 = .error failure ↔ as.findSome? trouble = some failure := by
  induction as with
  | nil => simp [inOrder]
  | cons a rest ih =>
    have first := known a (by simp)
    have tail := ih fun b member => known b (by simp [member])
    rcases outcome : step a with ⟨result, noted⟩
    rw [outcome] at first
    cases result with
    | error why =>
      have here := (first why).mp rfl
      simp [inOrder, outcome, here]
    | ok b =>
      have fine : trouble a = none := by
        rw [Option.eq_none_iff_forall_ne_some]
        intro why trouble
        cases (first why).mpr trouble
      rw [List.findSome?_cons, fine, ← tail]
      simp only [inOrder, outcome]
      exact map_eq_error

end Steps

theorem makeMissing_confined (dirs : List Path) (d : Disk) :
    Disk.Confined [] d (makeMissing dirs d).1 := by
  induction dirs generalizing d with
  | nil => exact .refl _ _
  | cons dir rest ih =>
    simp only [makeMissing]
    split
    · exact ih d
    · have first := d.makeDirectories_confined dir
      cases made : d.makeDirectories dir with
      | mk e result =>
        rw [made] at first
        cases result with
        | error why => exact first
        | ok _ => exact first.trans (ih e)

theorem makeMissing_of_directories {dirs : List Path} {d : Disk}
    (present : ∀ dir ∈ dirs, d.isDirectory dir = true) : makeMissing dirs d = (d, [], .ok []) := by
  induction dirs with
  | nil => rfl
  | cons dir rest ih =>
    rw [makeMissing, if_pos (present dir (by simp))]
    exact ih fun other member => present other (by simp [member])

/-- What one pass over the directories does: it passes by the ones that are there, makes the others,
    and lists the empty path, for which there is nothing to make. -/
inductive Passes : List Path → Disk → List Path → Disk → Prop
  | done (d : Disk) : Passes [] d [] d
  | present {dir : Path} {dirs created : List Path} {d e : Disk} (here : d.isDirectory dir = true)
      (rest : Passes dirs d created e) : Passes (dir :: dirs) d created e
  | unnamed {dirs created : List Path} {d e : Disk} (rest : Passes dirs d created e) :
      Passes (⟨""⟩ :: dirs) d (⟨""⟩ :: created) e
  | made {dir : Path} {dirs created : List Path} {d mid e : Disk} (named : dir ≠ ⟨""⟩)
      (missing : d.isDirectory dir = false) (change : Disk.Confined [] d mid)
      (here : mid.isDirectory dir = true) (rest : Passes dirs mid created e) :
      Passes (dir :: dirs) d (dir :: created) e

theorem passes_of_makeMissing {dirs created : List Path} {d : Disk}
    (run : (makeMissing dirs d).2.2 = .ok created) :
    Passes dirs d created (makeMissing dirs d).1 ∧
      (makeMissing dirs d).2.1 = created.map Config.created := by
  induction dirs generalizing d created with
  | nil =>
    cases run
    exact ⟨.done d, rfl⟩
  | cons dir rest ih =>
    cases here : d.isDirectory dir with
    | true =>
      rw [makeMissing, if_pos here] at run ⊢
      obtain ⟨passes, noted⟩ := ih run
      exact ⟨.present here passes, noted⟩
    | false =>
      rw [makeMissing, if_neg (by simp [here])] at run ⊢
      have change := d.makeDirectories_confined dir
      rcases made : d.makeDirectories dir with ⟨mid, result⟩
      rw [made] at change
      cases result with
      | error why => simp [made] at run
      | ok _ =>
        simp only [made] at run ⊢
        obtain ⟨more, later, rfl⟩ := map_eq_ok.mp run
        obtain ⟨passes, noted⟩ := ih later
        refine ⟨?_, by rw [noted, List.map_cons]⟩
        by_cases named : dir = ⟨""⟩
        · subst named
          rw [Disk.makeDirectories_empty] at made
          cases made
          exact .unnamed passes
        · have filled : dir.text ≠ "" := fun empty => named (congrArg Path.mk empty)
          exact .made named here change (Disk.isDirectory_of_makeDirectories filled made) passes

theorem Passes.all_present {dirs : List Path} {d e : Disk} (pass : Passes dirs d [] e) :
    ∀ dir ∈ dirs, d.isDirectory dir = true := by
  generalize listed : [] = created at pass
  induction pass with
  | done d => simp
  | present here _ ih => exact List.forall_mem_cons.mpr ⟨here, ih listed⟩
  | unnamed | made => cases listed

theorem directories_of_makeMissing {dirs : List Path} {d : Disk}
    (run : (makeMissing dirs d).2.2 = .ok []) : ∀ dir ∈ dirs, d.isDirectory dir = true :=
  (passes_of_makeMissing run).1.all_present

theorem makeMissing_error {dirs : List Path} {d : Disk} {failure : Failure}
    (run : (makeMissing dirs d).2.2 = .error failure) : ∃ dir, failure = .write dir := by
  induction dirs generalizing d failure with
  | nil => cases run
  | cons dir rest ih =>
    rw [makeMissing] at run
    split at run
    · exact ih run
    · cases made : d.makeDirectories dir with
      | mk e result =>
        cases result with
        | error why =>
          simp only [made, Except.error.injEq] at run
          exact ⟨dir, run.symm⟩
        | ok _ =>
          simp only [made] at run
          exact ih (map_eq_error.mp run)

theorem finish_eq (products : List Product) (d : Disk) :
    (finish products d).1 = (publish (products.flatMap (·.artifacts)) d).1 ∧
      (finish products d).2.2 = (publish (products.flatMap (·.artifacts)) d).2.2.map
        fun _ => .completed (products.map (·.summary)) := by
  rcases run : publish (products.flatMap (·.artifacts)) d with ⟨e, noted, result⟩
  cases result with
  | error failure => simp [finish, run, Except.map]
  | ok _ => simp [finish, run, Except.map]

theorem finish_ne_notReady (products : List Product) (d : Disk) (dirs : List Path) :
    (finish products d).2.2 ≠ .ok (.notReady dirs) := by
  rw [(finish_eq products d).2]
  intro finished
  obtain ⟨_, _, same⟩ := map_eq_ok.mp finished
  cases same

structure Ready (c : Config) (d : Disk) : Prop where
  valid : c.check = .ok ()
  present : ∀ dir ∈ c.iconDirectories, d.isDirectory dir = true

variable {τ σ : Type}

inductive Course (c : Config) (loader : Loader τ σ) (t : τ) (d : Disk) : RunResult τ → Prop
  | invalid {failure : Failure} (refused : c.check = .error failure) :
      Course c loader t d ⟨d, [], t, .error failure⟩
  | unmade {dir : Path} (valid : c.check = .ok ())
      (run : (makeMissing c.iconDirectories d).2.2 = .error (.write dir)) :
      Course c loader t d ⟨(makeMissing c.iconDirectories d).1,
        (makeMissing c.iconDirectories d).2.1, t, .error (.write dir)⟩
  | notReady {dirs : List Path} (valid : c.check = .ok ()) (some : dirs ≠ [])
      (run : (makeMissing c.iconDirectories d).2.2 = .ok dirs) :
      Course c loader t d ⟨(makeMissing c.iconDirectories d).1,
        (makeMissing c.iconDirectories d).2.1, t, .ok (.notReady dirs)⟩
  | unloaded {failure : Failure} {u : τ} (ready : c.Ready d)
      (load : loadFonts loader d c.fontPaths t = (.error failure, u)) :
      Course c loader t d ⟨d, [], u, .error failure⟩
  | unbaked {fonts : List σ} {u : τ} {failure : Failure} (ready : c.Ready d)
      (load : loadFonts loader d c.fontPaths t = (.ok fonts, u))
      (bake : (c.bakeAll loader d fonts).1 = .error failure) :
      Course c loader t d ⟨d, (c.bakeAll loader d fonts).2, u, .error failure⟩
  | baked {fonts : List σ} {u : τ} {products : List Product} (ready : c.Ready d)
      (load : loadFonts loader d c.fontPaths t = (.ok fonts, u))
      (bake : (c.bakeAll loader d fonts).1 = .ok products) :
      Course c loader t d ⟨(finish products d).1,
        (c.bakeAll loader d fonts).2 ++ (finish products d).2.1, u, (finish products d).2.2⟩

theorem run_of_ready {c : Config} {d : Disk} (ready : c.Ready d) (loader : Loader τ σ) (t : τ) :
    c.run loader t d = match loadFonts loader d c.fontPaths t with
      | (.error failure, u) => ⟨d, [], u, .error failure⟩
      | (.ok fonts, u) => match c.bakeAll loader d fonts with
        | (.error failure, noted) => ⟨d, noted, u, .error failure⟩
        | (.ok products, noted) =>
          ⟨(finish products d).1, noted ++ (finish products d).2.1, u, (finish products d).2.2⟩ := by
  have none_missing := makeMissing_of_directories ready.present
  rcases load : loadFonts loader d c.fontPaths t with ⟨failure | fonts, u⟩
  · simp only [run, ready.valid, none_missing, load]
  · rcases bake : c.bakeAll loader d fonts with ⟨failure | products, noted⟩ <;>
      simp only [run, ready.valid, none_missing, load, bake]

theorem run_of_baked {c : Config} {loader : Loader τ σ} {t : τ} {d : Disk} {fonts : List σ}
    {products : List Product} (ready : c.Ready d)
    (load : (loadFonts loader d c.fontPaths t).1 = .ok fonts)
    (bake : (c.bakeAll loader d fonts).1 = .ok products) :
    (c.run loader t d).disk = (finish products d).1 ∧
      (c.run loader t d).outcome = (finish products d).2.2 := by
  rw [run_of_ready ready]
  rcases loaded : loadFonts loader d c.fontPaths t with ⟨result, u⟩
  rcases baked : c.bakeAll loader d fonts with ⟨made, noted⟩
  rw [loaded] at load
  rw [baked] at bake
  subst load bake
  simp only [baked, and_self]

theorem run_of_made {c : Config} {d : Disk} {dirs : List Path} (valid : c.check = .ok ())
    (some : dirs ≠ []) (made : (makeMissing c.iconDirectories d).2.2 = .ok dirs)
    (loader : Loader τ σ) (t : τ) :
    c.run loader t d = ⟨(makeMissing c.iconDirectories d).1, (makeMissing c.iconDirectories d).2.1,
      t, .ok (.notReady dirs)⟩ := by
  rcases whole : makeMissing c.iconDirectories d with ⟨e, noted, result⟩
  rw [whole] at made
  subst made
  cases dirs with
  | nil => exact absurd rfl some
  | cons dir dirs => simp only [run, valid, whole]

theorem run_course (c : Config) (loader : Loader τ σ) (t : τ) (d : Disk) :
    Course c loader t d (c.run loader t d) := by
  cases valid : c.check with
  | error failure =>
    rw [run, valid]
    exact .invalid valid
  | ok _ =>
    rcases made : makeMissing c.iconDirectories d with ⟨e, noted, result⟩
    have outcome : (makeMissing c.iconDirectories d).2.2 = result := by rw [made]
    cases result with
    | error failure =>
      obtain ⟨dir, rfl⟩ := makeMissing_error outcome
      have course : Course c loader t d _ := .unmade valid outcome
      rw [run, valid]
      simpa only [made] using course
    | ok dirs =>
      cases dirs with
      | cons dir dirs =>
        rw [run_of_made valid (by simp) outcome]
        exact .notReady valid (by simp) outcome
      | nil =>
        have ready : c.Ready d := ⟨valid, directories_of_makeMissing outcome⟩
        rw [run_of_ready ready]
        rcases load : loadFonts loader d c.fontPaths t with ⟨result, u⟩
        cases result with
        | error failure => exact .unloaded ready load
        | ok fonts =>
          rcases bake : c.bakeAll loader d fonts with ⟨result, noted⟩
          have first : (c.bakeAll loader d fonts).1 = result := by rw [bake]
          cases result with
          | error failure => simpa only [load, bake] using Course.unbaked ready load first
          | ok products => simpa only [load, bake] using Course.baked ready load first

end PixelTables.Config
