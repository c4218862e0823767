import PixelTables.Disk.Basic
import PixelTables.Journal
import PixelTables.Listing

namespace PixelTables

def Path.staging (p : Path) : Path := p.withFileName (p.fileName.getD "" ++ ".tmp")

def Artifact.bytes (a : Artifact) : ByteArray := a.contents.toUTF8

namespace Publishing

def directory? (p : Path) : Option Path := p.parent.filter (·.text ≠ "")

def makeRoom (d : Disk) (a : Artifact) : Disk × Except Failure Unit :=
  match directory? a.path with
  | none => (d, .ok ())
  | some dir => match d.makeDirectories dir with
    | (d, .ok ()) => (d, .ok ())
    | (d, .error _) => (d, .error (.write dir))

/-- Writes every artifact to its staging file. Tells which of these there may be now, whole or in
    part: of all artifacts, or up to the one that failed. -/
def stage : List Artifact → Disk → Disk × List Path × Except Failure Unit
  | [], d => (d, [], .ok ())
  | a :: rest, d => match makeRoom d a with
    | (d, .error failure) => (d, [], .error failure)
    | (d, .ok ()) => match d.writeFile a.path.staging a.bytes with
      | (d, .error _) => (d, [a.path.staging], .error (.write a.path.staging))
      | (d, .ok ()) =>
        let (d, staged, result) := stage rest d
        (d, a.path.staging :: staged, result)

def wrote (p : Path) : Note := ⟨.debug, .emission, s!"Wrote '{p.text}'"⟩

def notRemoved (p : Path) : Note := ⟨.warn, .emission, s!"Could not remove '{p.text}'"⟩

/-- Moves staging files over the artifacts, last artifact first. Of a failure, tells which
    artifacts, in their order, have not been moved. -/
def moveBack : List Artifact → Disk → Disk × Journal × List Artifact × Except Failure Unit
  | [], d => (d, [], [], .ok ())
  | a :: before, d => match d.moveFile a.path.staging a.path with
    | .error _ => (d, [], (a :: before).reverse, .error (.write a.path))
    | .ok d =>
      let (d, noted, left, result) := moveBack before d
      (d, wrote a.path :: noted, left, result)

def cleanUp : List Path → Disk → Disk × Journal
  | [], d => (d, [])
  | p :: rest, d =>
    let (d, noted) := match d.removeFile p with
      | .ok d => (d, [])
      | .error .notFound => (d, [])
      | .error _ => (d, [notRemoved p])
    let (d, more) := cleanUp rest d
    (d, noted ++ more)

end Publishing

/-- Writes all artifacts or, where the disk refuses, none beyond a last part of the list: nothing
    takes its place before everything is written, and places are taken from the last on. -/
def publish (artifacts : List Artifact) (d : Disk) : Disk × Journal × Except Failure Unit :=
  match Publishing.stage artifacts d with
  | (d, staged, .error failure) =>
    let (d, noted) := Publishing.cleanUp staged d
    (d, noted, .error failure)
  | (d, _, .ok ()) =>
    let (d, moved, left, result) := Publishing.moveBack artifacts.reverse d
    let (d, noted) := Publishing.cleanUp (left.map (·.path.staging)) d
    (d, moved ++ noted, result)

end PixelTables
