import PixelTables.Proofs.Baking.Entries
import PixelTables.Proofs.Profile.Checked

namespace PixelTables

inductive Profile where
  | glyphs (p : GlyphProfile)
  | icons (p : IconProfile)

namespace Profile

def check : Profile → Except Failure Unit
  | .glyphs p => p.check
  | .icons p => p.check

def emptyTable : Profile → Table
  | .glyphs p => p.emptyTable
  | .icons p => p.emptyTable

def declarations : Profile → Path
  | .glyphs p => p.declarations
  | .icons p => p.declarations

def data : Profile → Path
  | .glyphs p => p.data
  | .icons p => p.data

def name (p : Profile) : String := p.emptyTable.name

def stem (p : Profile) : String := p.emptyTable.stem

def shape (p : Profile) : Shape := p.emptyTable.shape

def constant (p : Profile) (suffix : String) : String := p.stem ++ "_" ++ suffix

def indexSuffixes : Profile → List String
  | .glyphs p => p.chars.map fun ch => "U" ++ Text.hexUpper 4 ch.toNat
  | .icons p => p.entries.map (·.id)

/-- The tables that can come of a profile, whatever the source draws and the disk holds. -/
inductive Bakes : Profile → Table → Prop
  | glyphs {σ : Type} {p : GlyphProfile} {source : GlyphSource σ} {s : σ} {t : Table}
      (baked : (p.bake source s).1 = .ok t) : Bakes (.glyphs p) t
  | icons {p : IconProfile} {d : Disk} {dir : Path} {imaging : Icon.Imaging} {t : Table}
      (baked : (p.bake d dir imaging).1 = .ok t) : Bakes (.icons p) t

theorem constant_injective (p : Profile) : Function.Injective p.constant :=
  fun _ _ same => (String.append_right_inj _).mp same

theorem glyph_index (p : GlyphProfile) (ch : Char) :
    p.index ch = (Profile.glyphs p).constant ("U" ++ Text.hexUpper 4 ch.toNat) := by
  have underscore : "_U" = "_" ++ "U" := by decide
  rw [GlyphProfile.index, underscore, constant]
  simp only [String.append_assoc]
  rfl

theorem descriptor_ids (p : GlyphProfile) :
    p.descriptors.map (·.id) = (glyphs p).indexSuffixes.map (glyphs p).constant := by
  rw [indexSuffixes, GlyphProfile.descriptors, List.map_map, List.map_map]
  exact List.map_congr_left fun ch _ => glyph_index p ch

namespace Bakes

variable {p : Profile} {t : Table}

theorem grown (baked : p.Bakes t) : ∃ made, t = p.emptyTable.extend made := by
  cases baked with
  | glyphs baked =>
    obtain ⟨made, same, _⟩ := GlyphProfile.bake_entries baked
    exact ⟨made, same⟩
  | icons baked =>
    obtain ⟨made, same, _⟩ := IconProfile.bake_entries baked
    exact ⟨made, same⟩

theorem name (baked : p.Bakes t) : t.name = p.name := by
  obtain ⟨made, rfl⟩ := baked.grown
  rfl

theorem ids (baked : p.Bakes t) : t.ids = p.indexSuffixes.map p.constant := by
  cases baked with
  | glyphs baked =>
    rw [GlyphProfile.ids_of_bake baked, indexSuffixes, List.map_map]
    exact List.map_congr_left fun ch _ => glyph_index _ ch
  | icons baked =>
    rw [IconProfile.ids_of_bake baked, indexSuffixes, List.map_map]
    rfl

end Bakes

end Profile

namespace Config

variable {c : Config} {p : Profile}

def profiles (c : Config) : List Profile := c.glyphs.map .glyphs ++ c.icons.map .icons

theorem names_eq_profiles (c : Config) : c.names = c.profiles.map fun p => (p.name, p.stem) := by
  rw [names, profiles, List.map_append, List.map_map, List.map_map]
  rfl

theorem profile_checked (valid : c.check = .ok ()) (member : p ∈ c.profiles) : p.check = .ok () := by
  obtain ⟨_, _, glyphs, icons⟩ := check_eq_ok.mp valid
  rw [profiles, List.mem_append, List.mem_map, List.mem_map] at member
  rcases member with ⟨q, present, rfl⟩ | ⟨q, present, rfl⟩
  · exact glyphs q present
  · exact icons q present

theorem profile_identifiers (valid : c.check = .ok ()) (member : p ∈ c.profiles) :
    isIdentifier p.name = true ∧ isIdentifier p.stem = true := by
  have each := (checkNames_eq_ok.mp (check_eq_ok.mp valid).1).1
  rw [names_eq_profiles, List.forall_mem_map] at each
  exact each p member

theorem profile_names_nodup (valid : c.check = .ok ()) : (c.profiles.map (·.name)).Nodup := by
  have distinct := (checkNames_eq_ok.mp (check_eq_ok.mp valid).1).2
  rw [names_eq_profiles, List.map_map] at distinct
  exact distinct

end Config

end PixelTables
