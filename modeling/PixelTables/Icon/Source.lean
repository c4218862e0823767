import PixelTables.Disk.Basic
import PixelTables.Failure
import PixelTables.Image.Resample
import PixelTables.Image.Png
import PixelTables.Text.Ascii

namespace PixelTables

inductive IconSource where
  | own (path : Path)
  | fallback (path : Path)
  | missing
  deriving DecidableEq, Repr

namespace Icon

def source (d : Disk) (own : Path) (fallback : Option Path) : IconSource :=
  if d.isFile own then .own own
  else match fallback with
    | some path => if d.isFile path then .fallback path else .missing
    | none => .missing

def extensions : List String := ["png", "apng"]

def isPicture (p : Path) : Bool :=
  match p.extension with
  | some ending => String.ofList (ending.toList.map Text.lowerAscii) ∈ extensions
  | none => false

abbrev Decoder := Path → ByteArray → Except Image.Png.Defect (Raster Rgba)

/-- The kind of a picture is told by the end of its name, never by its contents. -/
def decode : Decoder := fun p bytes =>
  if isPicture p then Image.Png.decode bytes else .error .malformed

structure Imaging where
  decode : Decoder
  resizer : Image.Resizer

def Imaging.standard : Imaging := ⟨Icon.decode, .lanczos3⟩

def load (d : Disk) (p : Path) (decode : Decoder := decode) : Except Failure (Raster Rgba) :=
  match d.readBytes p with
  | .error _ => .error (.image p)
  | .ok bytes => match decode p bytes with
    | .ok picture => .ok picture
    | .error .malformed => .error (.image p)
    | .error .partialColor => .error (.breakdown (.palette p))

end Icon

end PixelTables
