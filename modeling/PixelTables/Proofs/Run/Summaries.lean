import PixelTables.Proofs.Baking.Warnings
import PixelTables.Proofs.Run.Independence
import Mathlib.Algebra.GroupWithZero.Nat

namespace PixelTables

variable {τ σ : Type}

namespace Publishing

theorem moveBack_warnings (as : List Artifact) (d : Disk) :
    Journal.warnings (moveBack as d).2.1 = [] := by
  induction as generalizing d with
  | nil => rfl
  | cons a before ih =>
    rw [moveBack]
    split
    · rfl
    · exact ih _

theorem publish_warnings {as : List Artifact} {d : Disk} (success : (publish as d).2.2 = .ok ()) :
    Journal.warnings (publish as d).2.1 = [] := by
  obtain ⟨middle, staged, run, _⟩ := publish_eq_ok success
  rcases moving : moveBack as.reverse middle with ⟨moved, noted, left, result⟩
  have quiet := moveBack_warnings as.reverse middle
  rw [moving] at quiet
  simp only [publish, run, moving] at success ⊢
  -- nothing is left to be removed, so nothing is said of it
  obtain ⟨_, _, _, ⟨_, rfl⟩ | ⟨⟨p, failed⟩, _⟩⟩ := moveBack_moving moving
  · rw [List.map_nil, cleanUp, List.append_nil]
    exact quiet
  · cases success.symm.trans failed

end Publishing

def Config.descriptors (c : Config) : Profile → List Descriptor
  | .glyphs p => p.descriptors
  | .icons p => p.descriptors (c.resolve p.sourceDir)

theorem Profile.Bakes.size {p : Profile} {t : Table} (baked : p.Bakes t) (c : Config) :
    t.size = (c.descriptors p).length := by
  have size : t.size = t.ids.length := by
    rw [Table.ids, List.length_map, Array.length_toList, Table.size]
  rw [size, baked.ids, List.length_map]
  cases p with
  | glyphs p => simp [indexSuffixes, Config.descriptors, GlyphProfile.descriptors]
  | icons p => simp [indexSuffixes, Config.descriptors, IconProfile.descriptors]

def Product.entries (p : Product) : List TableEntry := p.table.entries.toList

namespace Config

variable {c : Config} {loader : Loader τ σ} {t : τ} {d : Disk}

structure Tells (c : Config) (p : Profile) (t : Table) (s : Summary) : Prop where
  baked : p.Bakes t
  name : s.name = p.name
  entries : s.entries = (c.descriptors p).length
  substituted : s.substituted = t.entries.toList.countP (·.status.isSubstituted)
  degraded : s.degraded = t.entries.toList.countP (·.status.isDegraded)
  written : s.written = [c.resolve p.declarations, c.resolve p.data]

theorem tells_of_bakes {p : Profile} {t : Table} (baked : p.Bakes t) :
    c.Tells p t (c.product p.declarations p.data t).summary where
  baked := baked
  name := baked.name
  entries := baked.size c
  substituted := List.countP_eq_length_filter.symm
  degraded := List.countP_eq_length_filter.symm
  written := rfl

theorem bakeGlyphs_told {p : GlyphProfile} {font : σ} {product : Product}
    (bake : (c.bakeGlyphs loader p font).1 = .ok product) :
    Told (c.bakeGlyphs loader p font).2 product.entries := by
  obtain ⟨fine, table, baked, rfl⟩ := bakeGlyphs_eq_ok.mp bake
  have whole : (p.chars.find? fun ch => !!loader.breaksDown font ch p.fontSize) = none := by
    simpa using fine
  simp only [bakeGlyphs, whole]
  exact GlyphProfile.bake_told baked

theorem bakeIcons_told {imaging : Icon.Imaging} {p : IconProfile} {product : Product}
    (bake : (c.bakeIcons imaging d p).1 = .ok product) :
    Told (c.bakeIcons imaging d p).2 product.entries := by
  obtain ⟨table, baked, rfl⟩ := map_eq_ok.mp bake
  exact IconProfile.bake_told baked

theorem inOrder_told {α : Type} {step : α → Except Failure Product × Journal} {as : List α}
    {products : List Product}
    (each : ∀ a product, (step a).1 = .ok product → Told (step a).2 product.entries)
    (run : (inOrder step as).1 = .ok products) :
    Told (inOrder step as).2 (products.flatMap (·.entries)) := by
  induction as generalizing products with
  | nil =>
    cases run
    exact .nil
  | cons a rest ih =>
    rcases first : step a with ⟨result, noted⟩
    cases result with
    | error failure => simp [inOrder, first] at run
    | ok product =>
      have told := each a product (by rw [first])
      simp only [inOrder, first] at run told ⊢
      obtain ⟨others, later, rfl⟩ := map_eq_ok.mp run
      exact told.append (ih later)

theorem bakeAll_told {fonts : List σ} {products : List Product}
    (bake : (c.bakeAll loader d fonts).1 = .ok products) :
    Told (c.bakeAll loader d fonts).2 (products.flatMap (·.entries)) := by
  unfold bakeAll at bake ⊢
  split at bake
  · cases bake
  · rename_i glyphs noted first
    obtain ⟨icons, second, rfl⟩ := map_eq_ok.mp bake
    have glyphsTold := inOrder_told (fun _ _ => bakeGlyphs_told) (congrArg Prod.fst first)
    rw [first] at glyphsTold
    rw [List.flatMap_append]
    exact glyphsTold.append (inOrder_told (fun _ _ => bakeIcons_told) second)

theorem finish_warnings {products : List Product} {summaries : List Summary}
    (finished : (finish products d).2.2 = .ok (.completed summaries)) :
    Journal.warnings (finish products d).2.1 = [] := by
  obtain ⟨_, success, _⟩ := finish_completed finished
  have quiet := Publishing.publish_warnings success
  rcases run : publish (products.flatMap (·.artifacts)) d with ⟨e, noted, result⟩
  rw [run] at success quiet
  subst success
  have notes : ∀ sums : List Summary, Journal.warnings (sums.map (·.note)) = [] := by
    intro sums
    rw [Journal.warnings, List.filter_eq_nil_iff, List.forall_mem_map]
    intro s _
    simp [Summary.note, Note.progress]
  simp only [finish, run, warnings_append, notes]
  rw [quiet]
  rfl

theorem length_unrendered_entries (products : List Product) :
    (unrendered (products.flatMap (·.entries))).length =
      ((products.map (·.summary)).map fun s => s.substituted + s.degraded).sum := by
  induction products with
  | nil => rfl
  | cons p rest ih =>
    have counted : (unrendered p.entries).length = p.summary.substituted + p.summary.degraded := by
      rw [length_unrendered, List.countP_eq_length_filter, List.countP_eq_length_filter]
      rfl
    rw [List.flatMap_cons, unrendered_append, List.length_append, ih, counted]
    rfl

/-- A completed run tells one story three times. There is one summary for each profile, glyphs first,
    and it is right about the table baked of it; the journal has one warning for each entry that does
    not show its own picture, in the order of the tables and their entries, and names it; and there
    are as many warnings as the summaries have counted. -/
theorem completed_tells {summaries : List Summary}
    (completed : (c.run loader t d).outcome = .ok (.completed summaries)) :
    ∃ fonts products, (loadFonts loader d c.fontPaths t).1 = .ok fonts ∧
      (c.bakeAll loader d fonts).1 = .ok products ∧
      summaries = products.map (·.summary) ∧
      List.Forall₂ (fun p product => c.Tells p product.table product.summary) c.profiles products ∧
      Told (c.run loader t d).journal (products.flatMap (·.entries)) ∧
      (Journal.warnings (c.run loader t d).journal).length =
        (summaries.map fun s => s.substituted + s.degraded).sum := by
  have course := run_course c loader t d
  generalize c.run loader t d = result at course completed ⊢
  cases course with
  | invalid | unmade | notReady | unloaded | unbaked => cases completed
  | @baked fonts u products ready load bake =>
    obtain ⟨sums, _, _⟩ := finish_completed completed
    have length : fonts.length = c.glyphs.length := by
      rw [loadFonts_length (congrArg Prod.fst load), fontPaths, List.length_map]
    have told : Told ((c.bakeAll loader d fonts).2 ++ (finish products d).2.1)
        (products.flatMap (·.entries)) := by
      rw [Told, warnings_append, finish_warnings completed, List.append_nil]
      exact bakeAll_told bake
    have count := told.length_eq
    rw [length_unrendered_entries, ← sums] at count
    refine ⟨fonts, products, by rw [load], bake, sums, ?_, told, count⟩
    apply (bakeAll_products length bake).imp
    rintro p _ ⟨table, baked, rfl⟩
    exact tells_of_bakes baked

theorem completed_tells_mixed :
    (mixed.run .counting 0 withFont).outcome = .ok (.completed
      [⟨"g", 1, 0, 1, [⟨"g.h"⟩, ⟨"g.c"⟩]⟩, ⟨"t", 1, 0, 1, [⟨"t.h"⟩, ⟨"t.c"⟩]⟩]) ∧
      (Journal.warnings (mixed.run .counting 0 withFont).journal).length = 2 := by
  have completed : (mixed.run .counting 0 withFont).outcome = .ok (.completed
      [⟨"g", 1, 0, 1, [⟨"g.h"⟩, ⟨"g.c"⟩]⟩, ⟨"t", 1, 0, 1, [⟨"t.h"⟩, ⟨"t.c"⟩]⟩]) := by
    rw [← toOption_eq_some]
    decide +kernel
  obtain ⟨_, _, _, _, _, _, _, counted⟩ := completed_tells completed
  exact ⟨completed, counted⟩

end Config

end PixelTables
