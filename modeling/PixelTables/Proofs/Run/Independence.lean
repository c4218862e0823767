import PixelTables.Proofs.Run.Destinations

namespace PixelTables

variable {τ σ : Type} {loader : Loader τ σ} {t u : τ} {d : Disk}

/-- Loaders whose answer depends on the path and the files only. -/
def Loader.Steady (loader : Loader τ σ) : Prop :=
  ∀ d p t u, (loader.load d p t).1 = (loader.load d p u).1

/-- The artifacts of a profile on its own: those of the table baked with a font that is loaded for
    it, at its paths below the root. -/
inductive Renders (root : Path) (loader : Loader τ σ) (t : τ) (d : Disk) :
    Profile → List Artifact → Prop
  | glyphs {p : GlyphProfile} {font : σ} {table : Table}
      (load : (loader.load d (root.join p.font) t).1 = .ok font)
      (fine : ∀ ch ∈ p.chars, loader.breaksDown font ch p.fontSize = false)
      (baked : (p.bake loader.render font).1 = .ok table) :
      Renders root loader t d (.glyphs p)
        (Listing.artifacts table (root.join p.declarations) (root.join p.data))
  | icons {p : IconProfile} {table : Table}
      (baked : (p.bake d (root.join p.sourceDir) loader.imaging).1 = .ok table) :
      Renders root loader t d (.icons p)
        (Listing.artifacts table (root.join p.declarations) (root.join p.data))

namespace Renders

variable {root : Path} {p : Profile} {block other : List Artifact}

theorem paths (renders : Renders root loader t d p block) :
    block.map (·.path) = [root.join p.declarations, root.join p.data] := by
  cases renders <;> rfl

theorem congr (steady : loader.Steady) (renders : Renders root loader t d p block) :
    Renders root loader u d p block := by
  cases renders with
  | glyphs load fine baked => exact .glyphs ((steady d _ u t).trans load) fine baked
  | icons baked => exact .icons baked

theorem unique (first : Renders root loader t d p block) (second : Renders root loader t d p other) :
    block = other := by
  cases first with
  | glyphs load _ baked =>
    cases second with
    | glyphs load' _ baked' =>
      obtain rfl := Except.ok.inj (load.symm.trans load')
      rw [Except.ok.inj (baked.symm.trans baked')]
  | icons baked =>
    cases second with
    | icons baked' => rw [Except.ok.inj (baked.symm.trans baked')]

end Renders

namespace Config

variable {c : Config}

theorem loadFonts_eq_ok (steady : loader.Steady) {paths : List Path} {fonts : List σ} :
    (loadFonts loader d paths t).1 = .ok fonts ↔
      List.Forall₂ (fun p font => (loader.load d p t).1 = .ok font) paths fonts := by
  -- the loader goes on in another state than it started in, and answers the same
  induction paths generalizing t fonts with
  | nil => simp [loadFonts, eq_comm]
  | cons p rest ih =>
    rcases first : loader.load d p t with ⟨result, u⟩
    have later : ∀ {others : List σ}, (loadFonts loader d rest u).1 = .ok others ↔
        List.Forall₂ (fun p font => (loader.load d p t).1 = .ok font) rest others := by
      intro others
      rw [ih]
      simp only [steady d _ u t]
    rw [List.forall₂_cons_left_iff, first]
    cases result with
    | error failure => simp [loadFonts, first]
    | ok font =>
      simp only [loadFonts, first, map_eq_ok, later, Except.ok.injEq]
      constructor
      · rintro ⟨others, each, rfl⟩
        exact ⟨font, others, rfl, each, rfl⟩
      · rintro ⟨_, others, rfl, each, rfl⟩
        exact ⟨others, each, rfl⟩

theorem bakeGlyphs_eq_ok {p : GlyphProfile} {font : σ} {product : Product} :
    (c.bakeGlyphs loader p font).1 = .ok product ↔
      (∀ ch ∈ p.chars, loader.breaksDown font ch p.fontSize = false) ∧
        ∃ table, (p.bake loader.render font).1 = .ok table ∧
          c.product p.declarations p.data table = product := by
  simp only [bakeGlyphs]
  split
  · rename_i ch found
    have broken := List.find?_some found
    have member := List.mem_of_find?_eq_some found
    refine iff_of_false (by simp) fun fine => ?_
    simp [fine.1 ch member] at broken
  · rename_i none
    have fine : ∀ ch ∈ p.chars, loader.breaksDown font ch p.fontSize = false := by
      simpa using none
    rw [map_eq_ok, and_iff_right fine]

theorem bakeAll_eq_ok {fonts : List σ} {products : List Product} :
    (c.bakeAll loader d fonts).1 = .ok products ↔ ∃ glyphs icons,
      List.Forall₂ (fun x product => (c.bakeGlyphs loader x.1 x.2).1 = .ok product)
        (c.glyphs.zip fonts) glyphs ∧
      List.Forall₂ (fun p product => (c.bakeIcons loader.imaging d p).1 = .ok product) c.icons icons ∧
      products = glyphs ++ icons := by
  simp only [bakeAll, ← inOrder_eq_ok]
  rcases inOrder (fun (x : GlyphProfile × σ) => c.bakeGlyphs loader x.1 x.2) (c.glyphs.zip fonts) with
    ⟨result, noted⟩
  cases result with
  | error failure => simp
  | ok glyphs =>
    simp only [map_eq_ok]
    constructor
    · rintro ⟨icons, second, rfl⟩
      exact ⟨glyphs, icons, rfl, second, rfl⟩
    · rintro ⟨_, icons, first, second, rfl⟩
      exact ⟨icons, second, by rw [Except.ok.inj first]⟩

theorem glyphs_renders_iff (c : Config) {p : GlyphProfile} {block : List Artifact} :
    Renders c.root loader t d (.glyphs p) block ↔ ∃ font product,
      (loader.load d (c.resolve p.font) t).1 = .ok font ∧
        (c.bakeGlyphs loader p font).1 = .ok product ∧ block = product.artifacts := by
  constructor
  · rintro @⟨_, font, table, load, fine, baked⟩
    exact ⟨font, _, load, bakeGlyphs_eq_ok.mpr ⟨fine, table, baked, rfl⟩, rfl⟩
  · rintro ⟨font, product, load, baked, rfl⟩
    obtain ⟨fine, table, made, rfl⟩ := bakeGlyphs_eq_ok.mp baked
    exact .glyphs load fine made

theorem icons_renders_iff (c : Config) {p : IconProfile} {block : List Artifact} :
    Renders c.root loader t d (.icons p) block ↔ ∃ product,
      (c.bakeIcons loader.imaging d p).1 = .ok product ∧ block = product.artifacts := by
  constructor
  · rintro @⟨⟩
    rename_i table baked
    exact ⟨_, map_eq_ok.mpr ⟨table, baked, rfl⟩, rfl⟩
  · rintro ⟨product, baked, rfl⟩
    obtain ⟨table, made, rfl⟩ := map_eq_ok.mp baked
    exact .icons made

theorem glyphs_rendered (c : Config) {ps : List GlyphProfile} {blocks : List (List Artifact)} :
    List.Forall₂ (fun p block => Renders c.root loader t d (.glyphs p) block) ps blocks ↔
      ∃ fonts products,
        List.Forall₂ (fun p font => (loader.load d p t).1 = .ok font)
          (ps.map fun p => c.resolve p.font) fonts ∧
        List.Forall₂ (fun x product => (c.bakeGlyphs loader x.1 x.2).1 = .ok product)
          (ps.zip fonts) products ∧
        blocks = products.map (·.artifacts) := by
  induction ps generalizing blocks with
  | nil => simp
  | cons p ps ih =>
    rw [List.forall₂_cons_left_iff]
    constructor
    · rintro ⟨block, rest, first, each, rfl⟩
      obtain ⟨font, product, load, bake, rfl⟩ := c.glyphs_renders_iff.mp first
      obtain ⟨fonts, products, loaded, baked, rfl⟩ := ih.mp each
      exact ⟨font :: fonts, product :: products, .cons load loaded, .cons bake baked, rfl⟩
    · rintro ⟨_, _, loads, bakes, rfl⟩
      obtain ⟨font, fonts, load, loaded, rfl⟩ := List.forall₂_cons_left_iff.mp loads
      obtain ⟨product, products, bake, baked, rfl⟩ := List.forall₂_cons_left_iff.mp bakes
      exact ⟨_, _, c.glyphs_renders_iff.mpr ⟨font, product, load, bake, rfl⟩,
        ih.mpr ⟨fonts, products, loaded, baked, rfl⟩, rfl⟩

theorem icons_rendered (c : Config) {ps : List IconProfile} {blocks : List (List Artifact)} :
    List.Forall₂ (fun p block => Renders c.root loader t d (.icons p) block) ps blocks ↔
      ∃ products, List.Forall₂ (fun p product => (c.bakeIcons loader.imaging d p).1 = .ok product) ps products ∧
        blocks = products.map (·.artifacts) := by
  induction ps generalizing blocks with
  | nil => simp
  | cons p ps ih =>
    rw [List.forall₂_cons_left_iff]
    constructor
    · rintro ⟨block, rest, first, each, rfl⟩
      obtain ⟨product, bake, rfl⟩ := c.icons_renders_iff.mp first
      obtain ⟨products, baked, rfl⟩ := ih.mp each
      exact ⟨product :: products, .cons bake baked, rfl⟩
    · rintro ⟨_, bakes, rfl⟩
      obtain ⟨product, products, bake, baked, rfl⟩ := List.forall₂_cons_left_iff.mp bakes
      exact ⟨_, _, c.icons_renders_iff.mpr ⟨product, bake, rfl⟩, ih.mpr ⟨products, baked, rfl⟩, rfl⟩

def Hands (c : Config) (loader : Loader τ σ) (t : τ) (d : Disk) (as : List Artifact) : Prop :=
  ∃ fonts products, (loadFonts loader d c.fontPaths t).1 = .ok fonts ∧
    (c.bakeAll loader d fonts).1 = .ok products ∧ as = products.flatMap (·.artifacts)

theorem hands_iff (steady : loader.Steady) {as : List Artifact} :
    c.Hands loader t d as ↔ ∃ blocks,
      List.Forall₂ (Renders c.root loader t d) c.profiles blocks ∧ as = blocks.flatten := by
  simp only [Hands, fontPaths, loadFonts_eq_ok steady, bakeAll_eq_ok, profiles, forall₂_append_iff,
    List.forall₂_map_left_iff, glyphs_rendered, icons_rendered]
  constructor
  · rintro ⟨fonts, _, loaded, ⟨glyphs, icons, first, second, rfl⟩, rfl⟩
    refine ⟨_, ⟨_, _, ⟨fonts, glyphs, loaded, first, rfl⟩, ⟨icons, second, rfl⟩, rfl⟩, ?_⟩
    rw [← List.map_append, List.flatMap_def]
  · rintro ⟨_, ⟨_, _, ⟨fonts, glyphs, loaded, first, rfl⟩, ⟨icons, second, rfl⟩, rfl⟩, rfl⟩
    refine ⟨fonts, _, loaded, ⟨glyphs, icons, first, second, rfl⟩, ?_⟩
    rw [← List.map_append, List.flatMap_def]

theorem exists_block (steady : loader.Steady) (root : Path) (t : τ) (d : Disk) :
    ∃ block : Profile → List Artifact, ∀ u p as, Renders root loader u d p as → as = block p := by
  classical
  refine ⟨fun p => Classical.epsilon (Renders root loader t d p), fun u p as renders => ?_⟩
  have here : Renders root loader t d p as := renders.congr steady
  exact here.unique (Classical.epsilon_spec ⟨as, here⟩)

section Blocks

variable {block : Profile → List Artifact}

theorem hands_blocks (steady : loader.Steady) {as : List Artifact}
    (known : ∀ u p as, Renders c.root loader u d p as → as = block p) (hands : c.Hands loader t d as) :
    as = c.profiles.flatMap block ∧ ∀ p ∈ c.profiles, Renders c.root loader t d p (block p) := by
  obtain ⟨blocks, each, rfl⟩ := (hands_iff steady).mp hands
  have same : blocks = c.profiles.map block := by
    rw [← List.map_id blocks]
    exact map_eq_map_of_forall₂ each (known t)
  refine ⟨by rw [same, ← List.flatMap_def], ?_⟩
  rw [same, List.forall₂_map_right_iff, List.forall₂_same] at each
  exact each

theorem hands_of_renders (steady : loader.Steady)
    (each : ∀ p ∈ c.profiles, Renders c.root loader t d p (block p)) :
    c.Hands loader t d (c.profiles.flatMap block) := by
  refine (hands_iff steady).mpr ⟨c.profiles.map block, ?_, by rw [List.flatMap_def]⟩
  rw [List.forall₂_map_right_iff, List.forall₂_same]
  exact each

end Blocks

theorem run_of_hands (ready : c.Ready d) {as : List Artifact} (hands : c.Hands loader t d as) :
    (c.run loader t d).disk = (publish as d).1 ∧
      ∃ summaries, (c.run loader t d).outcome =
        (publish as d).2.2.map fun _ => .completed summaries := by
  obtain ⟨fonts, products, load, bake, rfl⟩ := hands
  obtain ⟨disk, outcome⟩ := run_of_baked ready load bake
  obtain ⟨endDisk, endOutcome⟩ := finish_eq products d
  exact ⟨disk.trans endDisk, _, outcome.trans endOutcome⟩

/-- What a run writes is independent from one table to the next. It has to write what its profiles
    render on their own, one after the other; it writes that and nothing else; a profile has the same
    artifacts in every configuration with this root; and a choice of profiles that can all be rendered
    can be rendered together. -/
theorem tables_independent (steady : loader.Steady) (c : Config) (t : τ) (d : Disk) :
    (∀ as, c.Hands loader t d as ↔ ∃ blocks,
      List.Forall₂ (Renders c.root loader t d) c.profiles blocks ∧ as = blocks.flatten) ∧
      (c.Ready d → ∀ as, c.Hands loader t d as → (c.run loader t d).disk = (publish as d).1 ∧
        ∃ summaries, (c.run loader t d).outcome =
          (publish as d).2.2.map fun _ => .completed summaries) ∧
      ∀ (other : Config) (u : τ), other.root = c.root →
        (other.profiles ⊆ c.profiles → ∀ as, c.Hands loader t d as → ∃ bs, other.Hands loader u d bs) ∧
        ∀ as bs, c.Hands loader t d as → other.Hands loader u d bs →
          ∃ block : Profile → List Artifact,
            as = c.profiles.flatMap block ∧ bs = other.profiles.flatMap block ∧
            ∀ p ∈ c.profiles ++ other.profiles,
              (block p).map (·.path) = [c.resolve p.declarations, c.resolve p.data] := by
  refine ⟨fun as => hands_iff steady, fun ready as => run_of_hands ready, fun other u root => ?_⟩
  obtain ⟨block, known⟩ := exists_block steady c.root t d
  have knownOther : ∀ v p as, Renders other.root loader v d p as → as = block p := by
    rw [root]
    exact known
  constructor
  · intro subset as hands
    obtain ⟨_, each⟩ := hands_blocks steady known hands
    have rendered : ∀ p ∈ other.profiles, Renders other.root loader u d p (block p) := by
      rw [root]
      exact fun p member => (each p (subset member)).congr steady
    exact ⟨_, hands_of_renders steady rendered⟩
  · intro as bs first second
    obtain ⟨same, each⟩ := hands_blocks steady known first
    obtain ⟨sameOther, eachOther⟩ := hands_blocks steady knownOther second
    refine ⟨block, same, sameOther, fun p member => ?_⟩
    rcases List.mem_append.mp member with member | member
    · exact (each p member).paths
    · rw [resolve, resolve, ← root]
      exact (eachOther p member).paths

end Config

def GlyphProfile.oneGlyph : GlyphProfile :=
  { GlyphProfile.standard with
    name := "g"
    stem := "G"
    font := ⟨"f.ttf"⟩
    count := 1
    declarations := ⟨"g.h"⟩
    data := ⟨"g.c"⟩ }

def IconProfile.oneIcon : IconProfile where
  name := "t"
  stem := "T"
  sourceDir := ⟨"d"⟩
  fallback := none
  cellSize := 1
  contentSize := 1
  alphaCutoff := 128
  entries := [⟨"A", ⟨"a.png"⟩, none⟩]
  shape := {}
  declarations := ⟨"t.h"⟩
  data := ⟨"t.c"⟩

def Loader.counting : Loader Nat ByteArray where
  load d p n := (match d.readBytes p with
    | .ok bytes => .ok bytes
    | .error _ => .error (.font p .unreadable), n + 1)
  render := fun ch _ bytes => (.error (.unsupported ch), bytes)

namespace Config

def mixed : Config := { root := ⟨""⟩, glyphs := [.oneGlyph], icons := [.oneIcon] }

def withFont : Disk where
  home := ["work"]
  entries := [(["work"], .directory), (["work", "d"], .directory), (["work", "f.ttf"], .file ⟨#[7]⟩)]

theorem tables_independent_mixed :
    Loader.counting.Steady ∧ mixed.Ready withFont ∧
      ∃ as bs front, mixed.Hands .counting 0 withFont as ∧
        Config.Hands { root := ⟨""⟩, icons := [.oneIcon] } .counting 7 withFont bs ∧
        front.map (·.path) = [⟨"g.h"⟩, ⟨"g.c"⟩] ∧ as = front ++ bs := by
  have steady : Loader.counting.Steady := fun _ _ _ _ => rfl
  have ready : mixed.Ready withFont := by
    refine ⟨?_, by decide +kernel⟩
    rw [← toOption_eq_some]
    decide +kernel
  have load : (Loader.counting.load withFont (mixed.root.join ⟨"f.ttf"⟩) 0).1 = .ok ⟨#[7]⟩ := by
    rw [← toOption_eq_some]
    decide +kernel
  have some : (IconProfile.oneIcon.bake withFont (mixed.root.join ⟨"d"⟩)).1.toOption.isSome = true := by
    decide +kernel
  obtain ⟨_, glyphs⟩ := GlyphProfile.oneGlyph.bake_ok Loader.counting.render ⟨#[7]⟩
  obtain ⟨_, icons⟩ := Option.isSome_iff_exists.mp some
  obtain ⟨hands, _, runs⟩ := tables_independent steady mixed 0 withFont
  have first := (hands _).mpr ⟨_, .cons (.glyphs load (fun _ _ => rfl) glyphs)
    (.cons (.icons (toOption_eq_some.mp icons)) .nil), rfl⟩
  obtain ⟨kept, same⟩ := runs { root := ⟨""⟩, icons := [.oneIcon] } 7 rfl
  obtain ⟨bs, second⟩ := kept (List.subset_cons_self _ _) _ first
  obtain ⟨block, whole, rest, paths⟩ := same _ bs first second
  refine ⟨steady, ready, _, bs, block (.glyphs .oneGlyph), first, second, ?_, ?_⟩
  · rw [paths _ (by simp [profiles, mixed])]
    decide +kernel
  · rw [whole, rest]
    rfl

end Config

end PixelTables
