import PixelTables.Proofs.Baking.Blank
import PixelTables.Proofs.Disk.Spellings
import PixelTables.Proofs.Run.Written

namespace PixelTables

namespace Config

open Disk

namespace Passes

variable {dirs created : List Path} {d e : Disk}

theorem confined (pass : Passes dirs d created e) : Confined [] d e := by
  induction pass with
  | done d => exact .refl _ _
  | present _ _ ih | unnamed _ ih => exact ih
  | made _ _ change _ _ ih => exact change.trans ih

theorem sublist (pass : Passes dirs d created e) : created.Sublist dirs := by
  induction pass with
  | done d => exact .slnil
  | present _ _ ih => exact ih.cons _
  | unnamed _ ih | made _ _ _ _ _ ih => exact ih.cons_cons _

theorem missing (pass : Passes dirs d created e) : ∀ p ∈ created, d.isDirectory p = false := by
  induction pass with
  | done d => simp
  | present _ _ ih => exact ih
  | unnamed _ ih => exact List.forall_mem_cons.mpr ⟨isDirectory_empty _, ih⟩
  | made _ missing change _ _ ih =>
    refine List.forall_mem_cons.mpr ⟨missing, fun p member => ?_⟩
    by_contra here
    rw [Bool.not_eq_false] at here
    have still := change.isDirectory here
    rw [ih p member] at still
    cases still

theorem directories (pass : Passes dirs d created e) :
    ∀ p ∈ dirs, p ≠ ⟨""⟩ → e.isDirectory p = true := by
  induction pass with
  | done d => simp
  | present here rest ih =>
    exact List.forall_mem_cons.mpr ⟨fun _ => rest.confined.isDirectory here, ih⟩
  | unnamed _ ih => exact List.forall_mem_cons.mpr ⟨fun named => absurd rfl named, ih⟩
  | made _ _ _ here rest ih =>
    exact List.forall_mem_cons.mpr ⟨fun _ => rest.confined.isDirectory here, ih⟩

theorem count_empty (pass : Passes dirs d created e) :
    created.count ⟨""⟩ = dirs.count ⟨""⟩ := by
  induction pass with
  | done d => rfl
  | present here _ ih =>
    rw [List.count_cons_of_ne _, ih]
    rintro rfl
    simp [isDirectory_empty] at here
  | unnamed _ ih => rw [List.count_cons_self, List.count_cons_self, ih]
  | made named _ _ _ _ ih => rw [List.count_cons_of_ne named, List.count_cons_of_ne named, ih]

theorem in_turn (pass : Passes dirs d created e) : created.Pairwise fun p q => p ≠ ⟨""⟩ →
    ∃ mid, Confined [] d mid ∧ Confined [] mid e ∧ mid.isDirectory p = true ∧
      mid.isDirectory q = false := by
  induction pass with
  | done d => exact .nil
  | present _ _ ih => exact ih
  | unnamed _ ih => exact .cons (fun _ _ named => absurd rfl named) ih
  | made _ _ change here rest ih =>
    refine .cons (fun q member _ => ⟨_, change, rest.confined, here, rest.missing q member⟩) ?_
    refine ih.imp fun pair named => ?_
    obtain ⟨mid, before, after, first, second⟩ := pair named
    exact ⟨mid, change.trans before, after, first, second⟩

theorem distinct (pass : Passes dirs d created e) :
    created.Pairwise fun p q => p.Same q → p = ⟨""⟩ ∧ q = ⟨""⟩ := by
  refine pass.in_turn.imp_of_mem fun {p q} _ listed turn same => ?_
  by_cases named : p = ⟨""⟩
  · subst named
    exact ⟨rfl, (Path.same_empty_iff q).mp same.symm⟩
  · obtain ⟨mid, _, _, here, gone⟩ := turn named
    have other : q ≠ ⟨""⟩ := by
      rintro rfl
      exact named ((Path.same_empty_iff p).mp same)
    have there := pass.directories q (pass.sublist.subset listed) other
    rw [isDirectory_of_same same (followable_of_isDirectory there) here] at gone
    cases gone

theorem apart (pass : Passes dirs d created e) : created.Pairwise fun p q =>
    p ≠ ⟨""⟩ → d.place p = d.place q → d.locate q = .error .notFound := by
  refine pass.in_turn.imp_of_mem fun {p q} _ listed turn named together => ?_
  obtain ⟨mid, before, _, here, gone⟩ := turn named
  by_cases empty : q = ⟨""⟩
  · subst empty
    rfl
  · have there := pass.directories q (pass.sublist.subset listed) empty
    rcases d.locate_cases q with located | ⟨why, refused⟩
    · -- `q` would then lead to the directory that was made for `p`
      have held := (isDirectory_iff.mp here).2
      rw [before.place, together, ← before.place] at held
      have found : mid.locate q = .ok (mid.place q) := by
        rw [before.place]
        exact before.locate located
      rw [isDirectory_iff.mpr ⟨found, held⟩] at gone
      cases gone
    · rw [refused, pass.confined.locate_of_made refused there]

end Passes

theorem makeMissing_of_named {dirs : List Path} {d : Disk}
    (there : ∀ p ∈ dirs, p ≠ ⟨""⟩ → d.isDirectory p = true) :
    (makeMissing dirs d).1 = d ∧ (makeMissing dirs d).2.2 = .ok (dirs.filter (· = ⟨""⟩)) := by
  induction dirs with
  | nil => exact ⟨rfl, rfl⟩
  | cons dir rest ih =>
    obtain ⟨first, later⟩ := List.forall_mem_cons.mp there
    obtain ⟨still, listed⟩ := ih later
    by_cases named : dir = ⟨""⟩
    · subst named
      simp [makeMissing, isDirectory_empty, makeDirectories_empty, still, listed, Except.map]
    · simp [makeMissing, first named, still, listed, named]

def NamesSources (c : Config) : Prop := c.root = ⟨""⟩ → ∀ p ∈ c.icons, p.sourceDir ≠ ⟨""⟩

theorem namesSources_iff (c : Config) : c.NamesSources ↔ ⟨""⟩ ∉ c.iconDirectories := by
  simp only [NamesSources, iconDirectories, resolve, List.mem_map, Path.join_eq_empty_iff,
    not_exists, not_and, ne_eq]
  constructor
  · exact fun names p member root => names root p member
  · exact fun names root p member => names p member root

variable {τ σ : Type} {c : Config} {loader : Loader τ σ} {t : τ} {d : Disk}

theorem ne_notReady_of_ready (ready : c.Ready d) (loader : Loader τ σ) (t : τ)
    (dirs : List Path) : (c.run loader t d).outcome ≠ .ok (.notReady dirs) := by
  intro asked
  have course := run_course c loader t d
  generalize c.run loader t d = result at course asked
  cases course with
  | invalid | unmade | unloaded | unbaked => cases asked
  | notReady _ some run =>
    rw [makeMissing_of_directories ready.present] at run
    exact some (Except.ok.inj run).symm
  | baked => exact finish_ne_notReady _ _ _ asked

theorem passes_of_notReady {created : List Path}
    (asked : (c.run loader t d).outcome = .ok (.notReady created)) :
    c.check = .ok () ∧ created ≠ [] ∧ Passes c.iconDirectories d created (c.run loader t d).disk ∧
      (c.run loader t d).journal = created.map Config.created := by
  have course := run_course c loader t d
  generalize c.run loader t d = result at course asked ⊢
  cases course with
  | invalid | unmade | unloaded | unbaked => cases asked
  | notReady valid some run =>
    cases asked
    exact ⟨valid, some, passes_of_makeMissing run⟩
  | baked => exact absurd asked (finish_ne_notReady _ _ _)

structure Asks (c : Config) (d : Disk) (created : List Path) (e : Disk) : Prop where
  some : created ≠ []
  listed : created.Sublist c.iconDirectories
  missing : ∀ p ∈ created, d.isDirectory p = false
  made : ∀ p ∈ c.iconDirectories, p ≠ ⟨""⟩ → e.isDirectory p = true
  unnamed : created.count ⟨""⟩ = c.iconDirectories.count ⟨""⟩
  distinct : created.Pairwise fun p q => p.Same q → p = ⟨""⟩ ∧ q = ⟨""⟩
  apart : created.Pairwise fun p q =>
    p ≠ ⟨""⟩ → d.place p = d.place q → d.locate q = .error .notFound

theorem asks_of_passes {created : List Path} {e : Disk} (some : created ≠ [])
    (pass : Passes c.iconDirectories d created e) : Asks c d created e :=
  ⟨some, pass.sublist, pass.missing, pass.directories, pass.count_empty, pass.distinct, pass.apart⟩

theorem Asks.made_iff {created : List Path} {e : Disk} (asks : Asks c d created e) :
    (∀ p ∈ created, e.isDirectory p = true) ↔ c.NamesSources := by
  rw [namesSources_iff]
  constructor
  · intro there unnamed
    have listed : ⟨""⟩ ∈ created := by
      rw [← List.count_pos_iff, asks.unnamed, List.count_pos_iff]
      exact unnamed
    have impossible := there _ listed
    rw [isDirectory_empty] at impossible
    cases impossible
  · intro names p listed
    have asked := asks.listed.subset listed
    exact asks.made p asked fun empty => names (empty ▸ asked)

theorem Asks.sources_iff {created : List Path} {e : Disk} (asks : Asks c d created e) :
    (∀ p ∈ c.iconDirectories, e.isDirectory p = true) ↔ c.NamesSources := by
  constructor
  · exact fun there => asks.made_iff.mp fun p listed => there p (asks.listed.subset listed)
  · intro names p asked
    rw [namesSources_iff] at names
    exact asks.made p asked fun empty => names (empty ▸ asked)

theorem Asks.listed_once_iff {created : List Path} {e : Disk} (asks : Asks c d created e) :
    created.Pairwise (fun p q => ¬ p.Same q) ↔ c.iconDirectories.count ⟨""⟩ ≤ 1 := by
  have twice : [⟨""⟩, ⟨""⟩].Sublist created ↔ 1 < c.iconDirectories.count ⟨""⟩ := by
    rw [← asks.unnamed]
    exact List.replicate_sublist_iff (n := 2) (a := Path.mk "")
  rw [← Nat.not_lt, ← twice]
  constructor
  · intro once both
    exact (List.pairwise_iff_forall_sublist.mp once both) (.refl _)
  · intro single
    rw [List.pairwise_iff_forall_sublist]
    intro p q both same
    obtain ⟨rfl, rfl⟩ := List.pairwise_iff_forall_sublist.mp asks.distinct both same
    exact single both

/-- A run that stops for missing images has made every directory it lists but the empty path, for
    which nothing is ever made: where no images are kept in a root without a name the next run goes
    on, and else no run does. -/
theorem notReady_progress_iff {created : List Path}
    (asked : (c.run loader t d).outcome = .ok (.notReady created)) :
    Asks c d created (c.run loader t d).disk ∧
      (c.run loader t d).journal = created.map Config.created ∧
      ((∀ p ∈ created, (c.run loader t d).disk.isDirectory p = true) ↔ c.NamesSources) ∧
      ((∀ p ∈ c.iconDirectories, (c.run loader t d).disk.isDirectory p = true) ↔ c.NamesSources) ∧
      (created.Pairwise (fun p q => ¬ p.Same q) ↔ c.iconDirectories.count ⟨""⟩ ≤ 1) ∧
      ∀ (ρ ω : Type) (again : Loader ρ ω) (u : ρ),
        ((∀ more, (c.run again u (c.run loader t d).disk).outcome ≠ .ok (.notReady more)) ↔
          c.NamesSources) ∧
        (¬ c.NamesSources →
          (c.run again u (c.run loader t d).disk).disk = (c.run loader t d).disk ∧
            (c.run again u (c.run loader t d).disk).outcome =
              .ok (.notReady (c.iconDirectories.filter (· = ⟨""⟩)))) := by
  obtain ⟨valid, some, pass, announced⟩ := passes_of_notReady asked
  have asks := asks_of_passes some pass
  generalize (c.run loader t d).disk = e at asks
  refine ⟨asks, announced, asks.made_iff, asks.sources_iff, asks.listed_once_iff, ?_⟩
  intro ρ ω again u
  have repeated : ¬ c.NamesSources → (c.run again u e).disk = e ∧ (c.run again u e).outcome =
      .ok (.notReady (c.iconDirectories.filter (· = ⟨""⟩))) := by
    intro unnamed
    rw [namesSources_iff, not_not] at unnamed
    obtain ⟨still, listed⟩ := makeMissing_of_named asks.made
    have left : c.iconDirectories.filter (· = ⟨""⟩) ≠ [] :=
      List.ne_nil_of_mem (List.mem_filter.mpr ⟨unnamed, by simp⟩)
    rw [run_of_made valid left listed]
    exact ⟨still, rfl⟩
  refine ⟨⟨?_, ?_⟩, repeated⟩
  · intro goes
    by_contra unnamed
    exact goes _ (repeated unnamed).2
  · intro names more
    exact ne_notReady_of_ready ⟨valid, asks.sources_iff.mpr names⟩ again u more

end Config

def IconProfile.keptIn (stem : String) (sourceDir : Path) : IconProfile :=
  { drawnBlanks with
    name := stem
    stem
    sourceDir
    declarations := ⟨stem ++ ".h"⟩
    data := ⟨stem ++ ".c"⟩ }

namespace Config

def nameless : Config where
  root := ⟨""⟩
  glyphs := []
  icons := [.keptIn "T" ⟨"d"⟩, .keptIn "U" ⟨"y/../d"⟩, .keptIn "V" ⟨""⟩]

theorem notReady_progress_iff_nameless :
    ∃ e, (nameless.run .files () withoutFiles).disk = e ∧
      (nameless.run .files () withoutFiles).outcome = .ok (.notReady [⟨"d"⟩, ⟨"y/../d"⟩, ⟨""⟩]) ∧
      withoutFiles.place ⟨"d"⟩ = withoutFiles.place ⟨"y/../d"⟩ ∧
      e.isDirectory ⟨"d"⟩ = true ∧ e.isDirectory ⟨"y/../d"⟩ = true ∧ ¬ nameless.NamesSources ∧
      (nameless.run .files () e).disk = e ∧
      (nameless.run .files () e).outcome = .ok (.notReady [⟨""⟩]) := by
  have asked : (nameless.run .files () withoutFiles).outcome =
      .ok (.notReady [⟨"d"⟩, ⟨"y/../d"⟩, ⟨""⟩]) := by
    rw [← toOption_eq_some]
    decide +kernel
  have unnamed : ¬ nameless.NamesSources := by
    intro names
    exact names rfl (.keptIn "V" ⟨""⟩) (by simp [nameless]) rfl
  obtain ⟨asks, _, _, _, _, runs⟩ := notReady_progress_iff asked
  obtain ⟨_, again⟩ := runs Unit Font .files ()
  obtain ⟨still, listed⟩ := again unnamed
  have last : nameless.iconDirectories.filter (· = ⟨""⟩) = [⟨""⟩] := by decide +kernel
  rw [last] at listed
  exact ⟨_, rfl, asked, by decide +kernel, asks.made ⟨"d"⟩ (by decide +kernel) (by decide +kernel),
    asks.made ⟨"y/../d"⟩ (by decide +kernel) (by decide +kernel), unnamed, still, listed⟩

end Config

end PixelTables
