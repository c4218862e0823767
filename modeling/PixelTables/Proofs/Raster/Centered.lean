import PixelTables.Canvas
import PixelTables.Proofs.Raster.Placement
import Mathlib.Data.Rat.Floor

namespace PixelTables

theorem centeredOffset_eq_floor (cell content : Nat) :
    centeredOffset cell content = ⌊((cell : ℚ) - content) / 2⌋ := by
  have quotient : ((cell : ℚ) - content) / 2 = (((cell : Int) - content : Int) : ℚ) / (2 : ℕ) := by
    push_cast
    rfl
  rw [quotient, Rat.floor_intCast_div_natCast, centeredOffset_eq]
  rfl

theorem centeredOffset_even {cell content : Nat} (even : 2 ∣ (cell : Int) - content) :
    (cell : Int) - content = 2 * centeredOffset cell content := by
  rw [centeredOffset_eq]
  omega

namespace Raster

variable {α : Type}

def opposite (turned : Bool) (size : Nat) (i : Int) : Int := if turned then size - 1 - i else i

theorem opposite_inside (turned : Bool) (size : Nat) (i : Int) :
    0 ≤ opposite turned size i ∧ opposite turned size i < size ↔ 0 ≤ i ∧ i < size := by
  cases turned <;> simp only [opposite, Bool.false_eq_true, ↓reduceIte]
  omega

theorem opposite_sub_centeredOffset {turned : Bool} {cell content : Nat}
    (even : turned = true → 2 ∣ (cell : Int) - content) (i : Int) :
    opposite turned content (i - centeredOffset cell content) =
      opposite turned cell i - centeredOffset cell content := by
  cases turned with
  | false => rfl
  | true =>
    -- nothing is left over that would have to lie on one side
    have gap := centeredOffset_even (even rfl)
    show (content : Int) - 1 - (i - centeredOffset cell content) =
      cell - 1 - i - centeredOffset cell content
    omega

def mirrored (r : Raster α) (across down : Bool) : Raster α :=
  r.overlaid fun x y => r.at? (opposite across r.width x) (opposite down r.height y)

theorem at?_mirrored (r : Raster α) (across down : Bool) (x y : Int) :
    (r.mirrored across down).at? x y =
      r.at? (opposite across r.width x) (opposite down r.height y) := by
  have columns := opposite_inside across r.width x
  have rows := opposite_inside down r.height y
  by_cases inside : 0 ≤ x ∧ x < r.width ∧ 0 ≤ y ∧ y < r.height
  · lift x to Nat using inside.1
    lift y to Nat using inside.2.2.1
    obtain ⟨old, here⟩ := r.exists_get? (x := x) (y := y) (by omega) (by omega)
    obtain ⟨new, there⟩ := r.exists_at? (x := opposite across r.width x)
      (y := opposite down r.height y) (by omega)
    rw [at?_natCast, mirrored, get?_overlaid, here, there]
    rfl
  · have outside : (r.mirrored across down).at? x y = none := by
      rw [at?_eq_none_iff]
      exact inside
    rw [outside, eq_comm, at?_eq_none_iff]
    omega

structure Centered (canvas content result : Raster α) (x y : Int) : Prop where
  across : x = ⌊((canvas.width : ℚ) - content.width) / 2⌋
  down : y = ⌊((canvas.height : ℚ) - content.height) / 2⌋
  width : result.width = canvas.width
  height : result.height = canvas.height
  samples : ∀ i j : Nat, i < canvas.width → j < canvas.height →
    result.get? i j = (content.at? (i - x) (j - y)).or (canvas.get? i j)
  right : canvas.width - content.width - x = x ∨ canvas.width - content.width - x = x + 1
  bottom : canvas.height - content.height - y = y ∨ canvas.height - content.height - y = y + 1

theorem centered_compositeCentered (canvas content : Raster α) :
    Centered canvas content (canvas.compositeCentered content).1
      (centeredOffset canvas.width content.width) (centeredOffset canvas.height content.height) := by
  have across := centeredOffset_bias canvas.width content.width
  have down := centeredOffset_bias canvas.height content.height
  simp only at across down
  refine ⟨centeredOffset_eq_floor _ _, centeredOffset_eq_floor _ _, rfl, rfl, ?_, by omega, by omega⟩
  intro i j beside below
  obtain ⟨old, here⟩ := canvas.exists_get? beside below
  rw [compositeCentered, get?_paste, here]
  cases content.at? (i - centeredOffset canvas.width content.width)
    (j - centeredOffset canvas.height content.height) <;> rfl

theorem compositeCentered_mirrored {canvas content : Raster α} {across down : Bool}
    (evenAcross : across = true → 2 ∣ (canvas.width : Int) - content.width)
    (evenDown : down = true → 2 ∣ (canvas.height : Int) - content.height) :
    ((canvas.mirrored across down).compositeCentered (content.mirrored across down)).1 =
      (canvas.compositeCentered content).1.mirrored across down := by
  refine ext_get? (by rfl) (by rfl) ?_
  intro i j _ _
  have columns := opposite_sub_centeredOffset evenAcross i
  have rows := opposite_sub_centeredOffset evenDown j
  show ((canvas.mirrored across down).paste (content.mirrored across down)
      (centeredOffset canvas.width content.width) (centeredOffset canvas.height content.height)).get?
        i j =
    ((canvas.paste content (centeredOffset canvas.width content.width)
      (centeredOffset canvas.height content.height)).mirrored across down).get? i j
  rw [← at?_natCast, ← at?_natCast, at?_paste, at?_mirrored, at?_mirrored, at?_mirrored, at?_paste,
    columns, rows]
  rfl

/-- Content centred on a canvas of any size replaces what it covers and nothing else, and a spare line
    lies at the far end. Mirror images stay mirror images where no line is spare. -/
theorem compositeCentered_centers (canvas content : Raster α) :
    Centered canvas content (canvas.compositeCentered content).1
        (canvas.compositeCentered content).2.1 (canvas.compositeCentered content).2.2 ∧
      ∀ across down : Bool, (across = true → 2 ∣ (canvas.width : Int) - content.width) →
        (down = true → 2 ∣ (canvas.height : Int) - content.height) →
          (canvas.mirrored across down).compositeCentered (content.mirrored across down) =
            ((canvas.compositeCentered content).1.mirrored across down,
              (canvas.compositeCentered content).2) := by
  refine ⟨centered_compositeCentered canvas content, ?_⟩
  intro across down evenAcross evenDown
  exact Prod.ext (compositeCentered_mirrored evenAcross evenDown) rfl

theorem compositeCentered_centers_overflowing :
    let canvas : Raster Nat := .fill 2 3 0
    let content : Raster Nat := .ofFn 5 1 fun x _ => x + 1
    let result := (canvas.compositeCentered content).1
    Centered canvas content result (-2) 1 ∧
      (canvas.mirrored false true).compositeCentered (content.mirrored false true) =
        (result.mirrored false true, -2, 1) ∧
      result.samples = #[0, 0, 3, 4, 0, 0] := by
  obtain ⟨centered, mirror⟩ :=
    compositeCentered_centers (.fill 2 3 0) (.ofFn 5 1 fun x _ => x + 1)
  exact ⟨centered, mirror false true (by decide) (by decide), by decide⟩

end Raster

end PixelTables
