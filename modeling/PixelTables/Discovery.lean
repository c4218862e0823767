import PixelTables.Disk.Basic
import PixelTables.Journal
import PixelTables.Manifest

namespace PixelTables

def manifestName : String := "cellbake.toml"

namespace Config

def load (d : Disk) (p : Path) : Except Failure Config :=
  match d.readText p with
  | none => .error (.config (some p) .unreadable)
  | some source =>
    (Manifest.read source (p.parent.getD ⟨"."⟩)).mapError (·.withPath p)

def usingManifest (p : Path) : Note := .config s!"Using manifest '{p.text}'"

def usingStandard (dir : Path) : Note :=
  .config s!"No {manifestName} in '{dir.text}', using built-in profiles"

def discover (d : Disk) (dir : Path) : Except Failure Config × Journal :=
  let manifest := dir.join ⟨manifestName⟩
  if d.isFile manifest then (load d manifest, [usingManifest manifest])
  else (.ok { standard with root := dir }, [usingStandard dir])

end Config

end PixelTables
