import PixelTables.Files

namespace PixelTables.Main

def absolute (place : Location) : String := "/" ++ "/".intercalate place

/-- Every place that the walk along a path comes through, whatever the disk holds. -/
def placesOn (d : Disk) (p : Path) : List Location :=
  let step := fun (acc : Location × List Location) piece =>
    let next := Disk.step acc.1 piece
    (next, acc.2 ++ [next])
  ((Disk.steps p).foldl step (d.start p, [d.start p])).2

def look (place : Location) : IO (Option Entry) := do
  let path := absolute place
  try
    let _ ← IO.FS.realPath (path ++ "/.")
    return some .directory
  catch _ =>
    try
      let bytes ← IO.FS.readBinFile path
      return some (.file bytes)
    catch _ => return none

def observe (home : Location) (paths : List Path) : IO Disk := do
  let mut d : Disk := { home, entries := [] }
  for place in (paths.flatMap (placesOn d)).eraseDups do
    match ← look place with
    | some entry => d := d.insert place entry
    | none => pure ()
  return d

def troubleOf : IO.Error → Trouble
  | .noFileOrDirectory .. => .notFound
  | .alreadyExists .. => .occupied
  | _ => .failed

def attempt (action : IO Unit) : IO (Except Trouble Unit) := do
  try
    action
    return .ok ()
  catch failure => return .error (troubleOf failure)

def files (home : Location) : Files IO where
  observe := observe home
  makeDirectory p := attempt (IO.FS.createDir p.text)
  writeFile p bytes := attempt <| IO.FS.withFile p.text .write fun handle => do
    handle.write bytes
    handle.flush
  moveFile source target := attempt (IO.FS.rename source.text target.text)
  removeFile p := attempt (IO.FS.removeFile p.text)

def line (n : Note) : String := s!"[{n.level.name} {n.origin.name}] {n.text}"

def run : IO UInt32 := do
  let home := Disk.steps ⟨(← IO.currentDir).toString⟩
  let (journal, status) ← (files home).execute
  let filter ← (do
    match ← IO.getEnv "RUST_LOG" with
    | some text => return Filter.ofText text.toList
    | none => return Filter.standard)
  for note in journal.filter filter.passes do
    IO.eprintln (line note)
  return status

end PixelTables.Main

def main : IO UInt32 := PixelTables.Main.run
