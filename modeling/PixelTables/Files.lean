import PixelTables.Command

namespace PixelTables

/-- What the program asks of a file system. It looks along paths, and what it sees is a disk that
    has no other places; everything else can be refused. -/
structure Files (m : Type → Type) where
  observe : List Path → m Disk
  makeDirectory : Path → m (Except Trouble Unit)
  writeFile : Path → ByteArray → m (Except Trouble Unit)
  moveFile : Path → Path → m (Except Trouble Unit)
  removeFile : Path → m (Except Trouble Unit)

namespace Files

variable {m : Type → Type} [Monad m] (files : Files m)

def isDirectory (p : Path) : m Bool := do
  return (← files.observe [p]).isDirectory p

def makeChain : List Path → m (Except Trouble Unit)
  | [] => return .error .notFound
  | p :: up =>
    if p.text = "" then return .ok ()
    else do
      match ← files.makeDirectory p with
      | .ok () => return .ok ()
      | .error .notFound =>
        match ← makeChain up with
        | .error why => return .error why
        | .ok () =>
          match ← files.makeDirectory p with
          | .ok () => return .ok ()
          | .error why => return if ← files.isDirectory p then .ok () else .error why
      | .error why => return if ← files.isDirectory p then .ok () else .error why

def makeDirectories (p : Path) : m (Except Trouble Unit) := files.makeChain p.ancestors

def makeRoom (a : Artifact) : m (Except Failure Unit) :=
  match Publishing.directory? a.path with
  | none => return .ok ()
  | some dir => do
    match ← files.makeDirectories dir with
    | .ok () => return .ok ()
    | .error _ => return .error (.write dir)

def stage : List Artifact → m (List Path × Except Failure Unit)
  | [] => return ([], .ok ())
  | a :: rest => do
    match ← files.makeRoom a with
    | .error failure => return ([], .error failure)
    | .ok () =>
      match ← files.writeFile a.path.staging a.bytes with
      | .error _ => return ([a.path.staging], .error (.write a.path.staging))
      | .ok () =>
        let (staged, result) ← stage rest
        return (a.path.staging :: staged, result)

def moveBack : List Artifact → m (Journal × List Artifact × Except Failure Unit)
  | [] => return ([], [], .ok ())
  | a :: before => do
    match ← files.moveFile a.path.staging a.path with
    | .error _ => return ([], (a :: before).reverse, .error (.write a.path))
    | .ok () =>
      let (noted, left, result) ← moveBack before
      return (Publishing.wrote a.path :: noted, left, result)

def cleanUp : List Path → m Journal
  | [] => return []
  | p :: rest => do
    let noted := match ← files.removeFile p with
      | .ok () | .error .notFound => []
      | .error _ => [Publishing.notRemoved p]
    return noted ++ (← cleanUp rest)

def publish (artifacts : List Artifact) : m (Journal × Except Failure Unit) := do
  match ← files.stage artifacts with
  | (staged, .error failure) => return (← files.cleanUp staged, .error failure)
  | (_, .ok ()) =>
    let (moved, left, result) ← files.moveBack artifacts.reverse
    let noted ← files.cleanUp (left.map (·.path.staging))
    return (moved ++ noted, result)

def makeMissing : List Path → m (Journal × Except Failure (List Path))
  | [] => return ([], .ok [])
  | dir :: rest => do
    if ← files.isDirectory dir then makeMissing rest
    else
      match ← files.makeDirectories dir with
      | .error _ => return ([], .error (.write dir))
      | .ok () =>
        let (noted, result) ← makeMissing rest
        return (Config.created dir :: noted, result.map (dir :: ·))

def finish (products : List Product) : m (Journal × Except Failure Outcome) := do
  match ← files.publish (products.flatMap (·.artifacts)) with
  | (noted, .error failure) => return (noted, .error failure)
  | (noted, .ok ()) =>
    let summaries := products.map (·.summary)
    return (noted ++ summaries.map (·.note), .ok (.completed summaries))

variable {τ σ : Type}

def run (c : Config) (loader : Loader τ σ) (t : τ) : m (Journal × τ × Except Failure Outcome) := do
  match c.check with
  | .error failure => return ([], t, .error failure)
  | .ok () =>
    match ← files.makeMissing c.iconDirectories with
    | (noted, .error failure) => return (noted, t, .error failure)
    | (noted, .ok (dir :: dirs)) => return (noted, t, .ok (.notReady (dir :: dirs)))
    | (_, .ok []) =>
      let d ← files.observe c.sources
      match Config.loadFonts loader d c.fontPaths t with
      | (.error failure, t) => return ([], t, .error failure)
      | (.ok fonts, t) =>
        match c.bakeAll loader d fonts with
        | (.error failure, noted) => return (noted, t, .error failure)
        | (.ok products, noted) =>
          let (more, outcome) ← files.finish products
          return (noted ++ more, t, outcome)

def execute : m (Journal × UInt32) := do
  let (found, noted) := Config.discover (← files.observe [Command.here, Command.manifest]) Command.here
  match found with
  | .error failure =>
    let (last, status) := Command.verdict (.error failure)
    return (noted ++ last, status)
  | .ok config =>
    let (journal, _, outcome) ← files.run config Loader.files ()
    let (last, status) := Command.verdict outcome
    return (noted ++ journal ++ last, status)

end Files

def Disk.acting {α : Type} (step : Disk → Disk × α) : StateM Disk α := fun d => ((step d).2, (step d).1)

def Disk.attempt (step : Disk → Except Trouble Disk) (d : Disk) : Disk × Except Trouble Unit :=
  match step d with
  | .ok e => (e, .ok ())
  | .error why => (d, .error why)

def Disk.files : Files (StateM Disk) where
  observe _ := get
  makeDirectory p := acting (attempt (·.makeDirectory p))
  writeFile p bytes := acting (·.writeFile p bytes)
  moveFile source target := acting (attempt (·.moveFile source target))
  removeFile p := acting (attempt (·.removeFile p))

end PixelTables
