import PixelTables.Profile.Basic
import PixelTables.Proofs.Text.Numerals
import Mathlib.Data.List.Nodup

namespace PixelTables.GlyphProfile

theorem charOfCode?_eq_some {code : Nat} {c : Char} (found : Text.charOfCode? code = some c) :
    c.toNat = code := by
  unfold Text.charOfCode? at found
  by_cases valid : code.isValidChar
  · rw [dif_pos valid] at found
    obtain rfl := Option.some.inj found
    rfl
  · rw [dif_neg valid] at found
    cases found

theorem chars_nodup (p : GlyphProfile) : p.chars.Nodup := by
  apply List.Nodup.filterMap _ List.nodup_range'
  intro code other c first second
  rw [← charOfCode?_eq_some first, ← charOfCode?_eq_some second]

theorem index_inj {p : GlyphProfile} {a b : Char} (same : p.index a = p.index b) : a = b := by
  have digits := (String.append_right_inj _).mp same
  exact Char.toNat_inj.mp (Text.hexUpper_inj digits)

theorem indices_nodup (p : GlyphProfile) : (p.chars.map p.index).Nodup :=
  p.chars_nodup.map fun _ _ same => index_inj same

theorem chars_toNat {p : GlyphProfile} (full : p.chars.length = p.count.toNat) :
    p.chars.map Char.toNat = List.range' p.firstChar.toNat p.count.toNat := by
  have bound : p.codes.length = min p.count.toNat (0x110000 - p.firstChar.toNat) :=
    List.length_range'
  have kept : p.chars.length ≤ p.codes.length := List.length_filterMap_le _ _
  have whole : p.codes = List.range' p.firstChar.toNat p.count.toNat := by
    rw [codes, Nat.min_eq_left (by omega)]
  have filled := List.filterMap_length_eq_length.mp (show p.chars.length = p.codes.length by omega)
  rw [← whole, chars, List.map_filterMap]
  conv => rhs; rw [← List.filterMap_some (l := p.codes)]
  apply List.filterMap_congr
  intro code member
  obtain ⟨c, found⟩ := Option.isSome_iff_exists.mp (filled code member)
  rw [found, Option.map_some, charOfCode?_eq_some found]

end PixelTables.GlyphProfile
