import PixelTables.Proofs.Path.Joined
import PixelTables.Proofs.Profile.Checked
import PixelTables.Proofs.Run.Written

namespace PixelTables

def Path.Apart (paths : List Path) : Prop := paths.Pairwise fun p q => ¬ p.Same q

namespace Config

theorem destinations_of_bake {τ σ : Type} {c : Config} {loader : Loader τ σ} {t : τ} {d : Disk}
    {fonts : List σ} {products : List Product}
    (load : (loadFonts loader d c.fontPaths t).1 = .ok fonts)
    (bake : (c.bakeAll loader d fonts).1 = .ok products) :
    (products.flatMap (·.artifacts)).map (·.path) = c.outputs.map c.resolve := by
  have length : fonts.length = c.glyphs.length := by
    rw [loadFonts_length load, fontPaths, List.length_map]
  rw [artifact_paths (bakeAll_made length bake), ← outputs_eq_pairs]

theorem apart_resolve_iff {c : Config} (valid : c.check = .ok ()) :
    Path.Apart (c.outputs.map c.resolve) ↔ c.outputs.Pairwise fun p q => ¬ c.root.Alias p q := by
  have differ := c.outputs_distinct valid
  rw [Path.Apart, List.pairwise_map]
  simp only [resolve, Path.same_join_iff, not_or, List.pairwise_and_iff, differ, true_and]

/-- The outputs of a valid configuration are still different after they are resolved unless two of
    them are aliases below its root; those that all start alike never are. -/
theorem destinations_apart_iff {c : Config} (valid : c.check = .ok ()) :
    (Path.Apart (c.outputs.map c.resolve) ↔ c.outputs.Pairwise fun p q => ¬ c.root.Alias p q) ∧
      ((∀ p ∈ c.outputs, ∀ q ∈ c.outputs, p.anchor = q.anchor) →
        Path.Apart (c.outputs.map c.resolve)) ∧
      ∀ {τ σ : Type} (loader : Loader τ σ) (t : τ) (d : Disk) (fonts : List σ)
        (products : List Product), (loadFonts loader d c.fontPaths t).1 = .ok fonts →
        (c.bakeAll loader d fonts).1 = .ok products →
        (products.flatMap (·.artifacts)).map (·.path) = c.outputs.map c.resolve := by
  refine ⟨apart_resolve_iff valid, fun alike => ?_, fun _ _ _ _ _ => destinations_of_bake⟩
  rw [apart_resolve_iff valid]
  apply (c.outputs_distinct valid).imp_of_mem
  intro p q first second differ met
  exact differ (met.same (alike p first q second))

def dotted : Config where
  root := ⟨"."⟩
  icons := [
    { name := "t"
      stem := "T"
      sourceDir := ⟨"d"⟩
      fallback := none
      cellSize := 1
      contentSize := 1
      alphaCutoff := 128
      entries := [⟨"A", ⟨"a.png"⟩, none⟩]
      shape := {}
      declarations := ⟨"o"⟩
      data := ⟨"./o"⟩ }]

theorem destinations_apart_iff_dotted :
    dotted.check = .ok () ∧ dotted.outputs.map dotted.resolve = [⟨"./o"⟩, ⟨"././o"⟩] ∧
      ¬ Path.Apart (dotted.outputs.map dotted.resolve) := by
  have valid : dotted.check = .ok () := by
    rw [← toOption_eq_some]
    decide +kernel
  refine ⟨valid, by decide +kernel, ?_⟩
  rw [(destinations_apart_iff valid).1]
  have met : dotted.root.Alias ⟨"o"⟩ ⟨"./o"⟩ :=
    .dotted (by decide +kernel) (by decide +kernel) (by decide) (by decide +kernel)
  intro apart
  exact (List.pairwise_cons.mp apart).1 ⟨"./o"⟩ (by decide +kernel) met

end Config

end PixelTables
