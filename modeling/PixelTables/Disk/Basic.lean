import PixelTables.Path

namespace PixelTables

abbrev Location := List String

inductive Entry where
  | directory
  | file (bytes : ByteArray)

/-- Everything below the root, with the directory that relative paths start from. A location
    stands at most once among the entries that `lookup` can see; the root is always a directory.
    A write to a place with a fault breaks off after so many bytes (or, where all of them were
    written, when they are synced). Otherwise only the shape of the tree refuses an operation:
    links, permissions, paths that are not UTF-8 and limits of memory are left out. -/
structure Disk where
  home : Location
  entries : List (Location × Entry)
  faults : Location → Option Nat := fun _ => none

inductive Trouble where
  | notFound
  | notDirectory
  | isDirectory
  | occupied
  | badName
  | failed
  deriving DecidableEq, Repr

namespace Disk

def lookup (d : Disk) (place : Location) : Option Entry :=
  if place = [] then some .directory else d.entries.lookup place

def erase (d : Disk) (place : Location) : Disk :=
  { d with entries := d.entries.filter fun e => e.1 ≠ place }

def insert (d : Disk) (place : Location) (entry : Entry) : Disk :=
  { d with entries := (place, entry) :: (d.erase place).entries }

/-- One step of a walk: a dot stays, two dots go up, and the root is its own parent. -/
def step (place : Location) (piece : String) : Location :=
  if piece = "." then place else if piece = ".." then place.dropLast else place ++ [piece]

def maxNameSize : Nat := 255

def maxPathSize : Nat := 4095

/-- Follows the pieces. Whatever a piece is looked up in must be a directory; the place reached
    by the last piece need not exist. -/
def walk (d : Disk) : Location → List String → Except Trouble Location
  | place, [] => .ok place
  | place, piece :: rest => match d.lookup place with
    | some .directory =>
      if maxNameSize < piece.utf8ByteSize then .error .badName else d.walk (step place piece) rest
    | some (.file _) => .error .notDirectory
    | none => .error .notFound

def start (d : Disk) (p : Path) : Location := if p.isAbsolute then [] else d.home

def steps (p : Path) : List String := p.pieces.filter (· ≠ "")

def endsInSlash (p : Path) : Bool := p.text.toList.getLast? = some '/'

def isPathText (text : String) : Bool :=
  text.utf8ByteSize ≤ maxPathSize && '\x00' ∉ text.toList

def locate (d : Disk) (p : Path) : Except Trouble Location :=
  if p.text = "" then .error .notFound
  else if isPathText p.text then d.walk (d.start p) (steps p)
  else .error .badName

def find? (d : Disk) (p : Path) : Except Trouble Entry := do
  let place ← d.locate p
  match d.lookup place with
  | none => .error .notFound
  | some (.file bytes) => if endsInSlash p then .error .notDirectory else .ok (.file bytes)
  | some .directory => .ok .directory

def isFile (d : Disk) (p : Path) : Bool :=
  match d.find? p with
  | .ok (.file _) => true
  | _ => false

def isDirectory (d : Disk) (p : Path) : Bool :=
  match d.find? p with
  | .ok .directory => true
  | _ => false

def readBytes (d : Disk) (p : Path) : Except Trouble ByteArray := do
  match ← d.find? p with
  | .file bytes => .ok bytes
  | .directory => .error .isDirectory

def readText (d : Disk) (p : Path) : Option String :=
  match d.readBytes p with
  | .ok bytes => String.fromUTF8? bytes
  | .error _ => none

def makeDirectory (d : Disk) (p : Path) : Except Trouble Disk := do
  let place ← d.locate p
  match d.lookup place with
  | some _ => .error .occupied
  | none => .ok (d.insert place .directory)

/-- Makes the first of `chain` after the rest of it, where the rest is missing. What was made
    before a refusal stays. -/
def makeChain (d : Disk) : List Path → Disk × Except Trouble Unit
  | [] => (d, .error .notFound)
  | p :: up =>
    if p.text = "" then (d, .ok ())
    else match d.makeDirectory p with
      | .ok made => (made, .ok ())
      | .error .notFound => match d.makeChain up with
        | (above, .error why) => (above, .error why)
        | (above, .ok ()) => match above.makeDirectory p with
          | .ok made => (made, .ok ())
          | .error why => (above, if above.isDirectory p then .ok () else .error why)
      | .error why => (d, if d.isDirectory p then .ok () else .error why)

def makeDirectories (d : Disk) (p : Path) : Disk × Except Trouble Unit :=
  d.makeChain p.ancestors

def fileSite (d : Disk) (p : Path) : Except Trouble Location := do
  if endsInSlash p then .error .isDirectory
  else
    let place ← d.locate p
    match d.lookup place with
    | some .directory => .error .isDirectory
    | _ => .ok place

/-- Writes a file from its beginning. A write that breaks off leaves the bytes written so far. -/
def writeFile (d : Disk) (p : Path) (bytes : ByteArray) : Disk × Except Trouble Unit :=
  match d.fileSite p with
  | .error why => (d, .error why)
  | .ok place => match d.faults place with
    | none => (d.insert place (.file bytes), .ok ())
    | some count => (d.insert place (.file (bytes.extract 0 count)), .error .failed)

def removeFile (d : Disk) (p : Path) : Except Trouble Disk := do
  let place ← d.locate p
  match d.lookup place with
  | none => .error .notFound
  | some .directory => .error .isDirectory
  | some (.file _) => if endsInSlash p then .error .notDirectory else .ok (d.erase place)

/-- Moves a regular file over another file or to a free place, never over a directory. -/
def moveFile (d : Disk) (source target : Path) : Except Trouble Disk := do
  let bytes ← d.readBytes source
  let sourcePlace ← d.locate source
  let targetPlace ← d.locate target
  match d.lookup targetPlace with
  | some .directory => .error .isDirectory
  | _ =>
    if endsInSlash target then .error .notDirectory
    else .ok ((d.erase sourcePlace).insert targetPlace (.file bytes))

def removeTree (d : Disk) (p : Path) : Except Trouble Disk := do
  let place ← d.locate p
  match d.lookup place with
  | none => .error .notFound
  | some _ => .ok { d with entries := d.entries.filter fun e => !place.isPrefixOf e.1 }

def enter (d : Disk) (p : Path) : Except Trouble Disk := do
  let place ← d.locate p
  match d.lookup place with
  | some .directory => .ok { d with home := place }
  | some (.file _) => .error .notDirectory
  | none => .error .notFound

def listing (d : Disk) : List String :=
  let below := d.entries.filterMap fun (place, entry) =>
    match d.home.isPrefixOf place, place.drop d.home.length with
    | true, piece :: rest =>
      let name := "/".intercalate (piece :: rest)
      some (match entry with | .directory => name ++ "/" | .file _ => name)
    | _, _ => none
  below.mergeSort (· ≤ ·)

def fresh : Disk where
  home := ["work"]
  entries := [(["work"], .directory)]

end Disk

end PixelTables
