import PixelTables.Baking.Glyphs
import PixelTables.Proofs.Glyph.Surface
import PixelTables.Proofs.Profile.Characters
import PixelTables.Proofs.Table.Push

namespace PixelTables

theorem Geometry.canvasSize?_eq {g : Geometry} {width height : UInt32}
    (canvas : g.canvasSize? = some (width, height)) :
    width.toNat = g.cellWidth.toNat + 2 * g.padding.toNat ∧
      height.toNat = g.cellHeight.toNat + 2 * g.padding.toNat :=
  Prod.mk.inj (canvasSize?_eq_some_iff.mp canvas).2

theorem Geometry.drawInk_size {g : Geometry} {canvas : UInt32 × UInt32}
    (found : g.canvasSize? = some canvas) (left top : Int) (ink : Raster UInt8) :
    (g.drawInk canvas left top ink).width = g.cellWidth.toNat ∧
      (g.drawInk canvas left top ink).height = g.cellHeight.toNat := by
  obtain ⟨width, height⟩ := canvas
  obtain ⟨across, down⟩ := g.canvasSize?_eq found
  simp only [drawInk, Raster.crop, Raster.paste, Raster.fill]
  omega

theorem Geometry.rasterize_size {σ : Type} {g : Geometry} {source : GlyphSource σ} {ch : Char} {s : σ}
    {picture : Raster UInt8} (drawn : (g.rasterize source ch s).1 = .ok picture) :
    picture.width = g.cellWidth.toNat ∧ picture.height = g.cellHeight.toNat := by
  simp only [rasterize] at drawn
  split at drawn
  · cases drawn
  · rename_i canvas found
    split at drawn
    · cases drawn
    · split at drawn
      · cases drawn
      · rw [← Except.ok.inj drawn]
        exact drawInk_size found _ _ _

namespace GlyphProfile

variable {σ : Type}

theorem entry_size (p : GlyphProfile) (source : GlyphSource σ) (ch : Char) (s : σ) :
    (p.entry ch (p.geometry.rasterize source ch s).1).cell.width = p.cellWidth.toNat ∧
      (p.entry ch (p.geometry.rasterize source ch s).1).cell.height = p.cellHeight.toNat := by
  cases drawn : (p.geometry.rasterize source ch s).1 with
  | error why => exact ⟨rfl, rfl⟩
  | ok picture => exact Geometry.rasterize_size drawn

theorem bakeChars_ok (p : GlyphProfile) (source : GlyphSource σ) {chars : List Char} {t : Table} (s : σ)
    (expects : t.Expects p.cellWidth.toNat p.cellHeight.toNat (chars.map p.index)) :
    ∃ u, (p.bakeChars source chars t s).1 = .ok u := by
  induction chars generalizing t s with
  | nil => exact ⟨t, rfl⟩
  | cons ch rest ih =>
    -- the state of the source changes on the way, but never the size of a cell
    obtain ⟨width, height⟩ := p.entry_size source ch s
    rcases drawn : p.geometry.rasterize source ch s with ⟨picture, later⟩
    rw [drawn] at width height
    obtain ⟨u, pushed, _, room⟩ := Table.Expects.push (e := p.entry ch picture) expects width height
    obtain ⟨last, done⟩ := ih later room
    refine ⟨last, ?_⟩
    simp only [bakeChars, drawn, pushed]
    exact done

theorem emptyTable_expects (p : GlyphProfile) :
    p.emptyTable.Expects p.cellWidth.toNat p.cellHeight.toNat (p.chars.map p.index) :=
  ⟨rfl, rfl, p.indices_nodup⟩

theorem bake_ok (p : GlyphProfile) (source : GlyphSource σ) (s : σ) :
    ∃ t, (p.bake source s).1 = .ok t :=
  p.bakeChars_ok source s p.emptyTable_expects

end GlyphProfile

end PixelTables
