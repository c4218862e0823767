import PixelTables.Raster

namespace PixelTables

/-- Where content of length `content` starts so that it is centred in `cell`. An odd remainder
    leaves the extra sample at the far end; content longer than the cell starts before it. -/
def centeredOffset (cell content : Nat) : Int := ((cell : Int) - content).fdiv 2

theorem centeredOffset_eq (cell content : Nat) :
    centeredOffset cell content = ((cell : Int) - content) / 2 := by
  simp [centeredOffset, Int.fdiv_eq_ediv_of_nonneg]

theorem centeredOffset_bias (cell content : Nat) :
    let before := centeredOffset cell content
    let after := (cell : Int) - content - before
    after - before = 0 ∨ after - before = 1 := by
  simp only [centeredOffset_eq]
  omega

namespace Raster

def transparent (width height : Nat) : Raster Rgba := fill width height .transparent

def compositeCentered {α : Type} (canvas content : Raster α) : Raster α × Int × Int :=
  let x := centeredOffset canvas.width content.width
  let y := centeredOffset canvas.height content.height
  (canvas.paste content x y, x, y)

end Raster

end PixelTables
