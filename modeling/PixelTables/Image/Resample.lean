import PixelTables.Raster

namespace PixelTables.Image

structure Tint where
  red : Float32
  green : Float32
  blue : Float32
  alpha : Float32

namespace Tint

def zero : Tint := ⟨0, 0, 0, 0⟩

def ofRgba (p : Rgba) : Tint :=
  ⟨p.red.toNat.toFloat32, p.green.toNat.toFloat32, p.blue.toNat.toFloat32, p.alpha.toNat.toFloat32⟩

def addScaled (a b : Tint) (weight : Float32) : Tint :=
  ⟨a.red + b.red * weight, a.green + b.green * weight, a.blue + b.blue * weight,
    a.alpha + b.alpha * weight⟩

def channel (x : Float32) : UInt8 :=
  (if x < 0 then 0 else if x > 255 then 255 else x).round.toUInt8

def toRgba (t : Tint) : Rgba := ⟨channel t.red, channel t.green, channel t.blue, channel t.alpha⟩

end Tint

def halfTurn : Float32 := Float32.ofBits 0x40490FDB

def sinc (t : Float32) : Float32 :=
  let a := t * halfTurn
  if t == 0 then 1 else a.sin / a

def lanczos3 (x : Float32) : Float32 :=
  if x.abs < 3 then sinc x * sinc (x / 3) else 0

structure Taps where
  first : Nat
  weights : List Float32

/-- The taps of output position `out` when `source` positions become `target`. Shrinking widens
    the kernel by the ratio, and the shares are scaled to a sum of one. -/
def taps (source target out : Nat) : Taps :=
  let ratio := source.toFloat32 / target.toFloat32
  let scale := if ratio < 1 then 1 else ratio
  let support := 3 * scale
  let center := (out.toFloat32 + 0.5) * ratio
  let first := min (center - support).floor.toUInt64.toNat (source - 1)
  let last := max (first + 1) (min (center + support).ceil.toUInt64.toNat source)
  let origin := center - 0.5
  let raw := (List.range (last - first)).map fun i =>
    lanczos3 (((first + i).toFloat32 - origin) / scale)
  let sum := raw.foldl (· + ·) 0
  ⟨first, raw.map (· / sum)⟩

def Taps.blend (t : Taps) (get : Nat → Tint) : Tint :=
  (t.weights.foldl (fun (acc : Tint × Nat) weight =>
    (acc.1.addScaled (get acc.2) weight, acc.2 + 1)) (Tint.zero, t.first)).1

def resampleRows (r : Raster Tint) (height : Nat) : Raster Tint :=
  let plan := Array.ofFn fun i : Fin height => taps r.height height i
  .ofFn r.width height fun x y => match plan[y]? with
    | some t => t.blend fun source => (r.get? x source).getD .zero
    | none => .zero

def resampleColumns (r : Raster Tint) (width : Nat) : Raster Rgba :=
  let plan := Array.ofFn fun i : Fin width => taps r.width width i
  .ofFn width r.height fun x y => match plan[x]? with
    | some t => (t.blend fun source => (r.get? source y).getD .zero).toRgba
    | none => .transparent

/-- Resamples an image to another size, rows first. Alpha is a channel like the others. An image
    without pixels gives transparency, and one of the wanted size is kept as it is. -/
def resize (r : Raster Rgba) (width height : Nat) : Raster Rgba :=
  if r.width = 0 ∨ r.height = 0 then .fill width height .transparent
  else if r.width = width ∧ r.height = height then r
  else resampleColumns (resampleRows (r.map .ofRgba) height) width

@[simp] theorem width_resize (r : Raster Rgba) (width height : Nat) :
    (resize r width height).width = width := by
  simp only [resize]
  split
  · rfl
  · split
    · rename_i same; exact same.1
    · rfl

@[simp] theorem height_resize (r : Raster Rgba) (width height : Nat) :
    (resize r width height).height = height := by
  simp only [resize]
  split
  · rfl
  · split
    · rename_i same; exact same.2
    · rfl

theorem resize_same (r : Raster Rgba) : resize r r.width r.height = r := by
  by_cases empty : r.width = 0 ∨ r.height = 0
  · obtain ⟨width, height, samples, size⟩ := r
    have none : width * height = 0 := Nat.mul_eq_zero.mpr empty
    obtain rfl : samples = #[] := Array.eq_empty_of_size_eq_zero (size.trans none)
    simp [resize, Raster.fill, empty, none]
  · simp [resize, empty]

/-- A way to bring pictures to another size. One that has the size is kept as it is. -/
structure Resizer where
  resize : Raster Rgba → Nat → Nat → Raster Rgba
  width_resize : ∀ r width height, (resize r width height).width = width
  height_resize : ∀ r width height, (resize r width height).height = height
  resize_same : ∀ r, resize r r.width r.height = r

def Resizer.lanczos3 : Resizer where
  resize := Image.resize
  width_resize := Image.width_resize
  height_resize := Image.height_resize
  resize_same := Image.resize_same

end PixelTables.Image
