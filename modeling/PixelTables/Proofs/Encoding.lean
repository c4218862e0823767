import PixelTables.Encoding

namespace PixelTables

namespace GlyphEncoding

theorem word_zero (encoding : GlyphEncoding) :
    encoding.word 0 = if encoding = .binary 0 then 1 else 0 := by
  cases encoding with
  | intensity => rfl
  | binary threshold => by_cases none : threshold = 0 <;> simp [word, none]

theorem word_le (encoding : GlyphEncoding) (coverage : UInt8) : encoding.word coverage ≤ 255 := by
  rw [UInt32.le_iff_toNat_le]
  cases encoding with
  | binary threshold =>
    simp only [word]
    split <;> decide
  | intensity =>
    have bound := coverage.toNat_lt
    simp only [word, UInt8.toNat_toUInt32]
    show coverage.toNat ≤ 255
    omega

theorem word_binary (threshold coverage : UInt8) :
    (binary threshold).word coverage = 0 ∨ (binary threshold).word coverage = 1 := by
  simp only [word]
  split
  · exact .inr rfl
  · exact .inl rfl

end GlyphEncoding

theorem join_byte (high : Nat) {low : Nat} (small : low < 256) :
    high <<< 8 ||| low = high * 256 + low := by
  rw [← Nat.shiftLeft_add_eq_or_of_lt (i := 8) small, Nat.shiftLeft_eq]

theorem toNat_color (red green blue : UInt8) :
    (red.toUInt32 <<< 16 ||| green.toUInt32 <<< 8 ||| blue.toUInt32).toNat =
      (red.toNat * 256 + green.toNat) * 256 + blue.toNat := by
  have high := red.toNat_lt
  have middle := green.toNat_lt
  have low := blue.toNat_lt
  have first : (red.toUInt32 <<< 16).toNat = red.toNat <<< 8 <<< 8 := by
    rw [UInt32.toNat_shiftLeft, UInt8.toNat_toUInt32, ← Nat.shiftLeft_add]
    apply Nat.mod_eq_of_lt
    rw [Nat.shiftLeft_eq]
    show red.toNat * 65536 < 4294967296
    omega
  have second : (green.toUInt32 <<< 8).toNat = green.toNat <<< 8 := by
    rw [UInt32.toNat_shiftLeft, UInt8.toNat_toUInt32]
    apply Nat.mod_eq_of_lt
    rw [Nat.shiftLeft_eq]
    show green.toNat * 256 < 4294967296
    omega
  rw [UInt32.toNat_or, UInt32.toNat_or, first, second, UInt8.toNat_toUInt32,
    ← Nat.shiftLeft_or_distrib, join_byte _ middle, join_byte _ low]

structure Rgba.ColorWord (p : Rgba) (w : UInt32) : Prop where
  high : w >>> 24 = 0
  red : (w >>> 16).toUInt8 = p.red
  green : (w >>> 8).toUInt8 = p.green
  blue : w.toUInt8 = p.blue

theorem Rgba.colorWord_of_toNat {p : Rgba} {w : UInt32}
    (value : w.toNat = (p.red.toNat * 256 + p.green.toNat) * 256 + p.blue.toNat) :
    p.ColorWord w := by
  have red := p.red.toNat_lt
  have green := p.green.toNat_lt
  have blue := p.blue.toNat_lt
  refine ⟨?_, ?_, ?_, ?_⟩
  · rw [← UInt32.toNat_inj, UInt32.toNat_shiftRight, Nat.shiftRight_eq_div_pow]
    show w.toNat / 16777216 = 0
    omega
  · rw [← UInt8.toNat_inj, UInt32.toNat_toUInt8, UInt32.toNat_shiftRight, Nat.shiftRight_eq_div_pow]
    show w.toNat / 65536 % 256 = p.red.toNat
    omega
  · rw [← UInt8.toNat_inj, UInt32.toNat_toUInt8, UInt32.toNat_shiftRight, Nat.shiftRight_eq_div_pow]
    show w.toNat / 256 % 256 = p.green.toNat
    omega
  · rw [← UInt8.toNat_inj, UInt32.toNat_toUInt8]
    show w.toNat % 256 = p.blue.toNat
    omega

theorem Rgba.ColorWord.ne_transparentWord {p : Rgba} {w : UInt32} (color : p.ColorWord w) :
    w ≠ transparentWord := by
  rintro rfl
  exact absurd color.high (by decide)

namespace IconEncoding

structure Stores (e : IconEncoding) (p : Rgba) (w : UInt32) : Prop where
  hidden : w = transparentWord ↔ p.alpha < e.alphaCutoff
  drawn : e.alphaCutoff ≤ p.alpha → p.ColorWord w

theorem stores_word (e : IconEncoding) (p : Rgba) : e.Stores p (e.word p) := by
  by_cases below : p.alpha < e.alphaCutoff
  · have word : e.word p = transparentWord := if_pos below
    exact ⟨by simp [word, below], fun above => absurd below (UInt8.not_lt.mpr above)⟩
  · have word : e.word p = p.red.toUInt32 <<< 16 ||| p.green.toUInt32 <<< 8 ||| p.blue.toUInt32 :=
      if_neg below
    have color : p.ColorWord (e.word p) := by
      apply Rgba.colorWord_of_toNat
      rw [word, toNat_color]
    exact ⟨by simp [color.ne_transparentWord, below], fun _ => color⟩

theorem word_transparent (e : IconEncoding) :
    e.word .transparent = if e.alphaCutoff = 0 then 0 else transparentWord := by
  by_cases none : e.alphaCutoff = 0
  · simp [word, Rgba.transparent, none]
  · have below : 0 < e.alphaCutoff := UInt8.pos_iff_ne_zero.mpr none
    simp [word, Rgba.transparent, none, below]

end IconEncoding

end PixelTables
