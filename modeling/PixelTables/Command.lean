import PixelTables.Discovery
import PixelTables.Journal.Filter
import PixelTables.Run

namespace PixelTables

structure Ending where
  disk : Disk
  journal : Journal
  status : UInt32

namespace Command

def done (tables : List Summary) : Note :=
  let files := (tables.flatMap (·.written)).length
  ⟨.info, .command, s!"Done: {tables.length} tables, {files} files"⟩

def unfinished (directories : Nat) : Note :=
  ⟨.warn, .command,
    s!"Nothing baked; {directories} icon directories were created and need images"⟩

def verdict : Except Failure Outcome → Journal × UInt32
  | .ok (.completed tables) => ([done tables], 0)
  | .ok (.notReady created) => ([unfinished created.length], 0)
  | .error failure =>
    if failure.isAbrupt then ([], 101) else ([⟨.error, .command, failure.message⟩], 1)

def here : Path := ⟨"."⟩

def manifest : Path := here.join ⟨manifestName⟩

def execute (d : Disk) : Ending :=
  let (found, noted) := Config.discover d here
  match found with
  | .error failure =>
    let (last, status) := verdict (.error failure)
    ⟨d, noted ++ last, status⟩
  | .ok config =>
    let result := config.run Loader.files () d
    let (last, status) := verdict result.outcome
    ⟨result.disk, noted ++ result.journal ++ last, status⟩

end Command

end PixelTables
