import PixelTables.Canvas
import PixelTables.Image.Resample

namespace PixelTables.Icon

def rasterize (source : Raster Rgba) (cellSize contentSize : Nat)
    (resizer : Image.Resizer := .lanczos3) : Raster Rgba :=
  ((Raster.transparent cellSize cellSize).compositeCentered
    (resizer.resize source contentSize contentSize)).1

end PixelTables.Icon
