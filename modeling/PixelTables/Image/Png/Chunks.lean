import PixelTables.Binary.Checksum
import PixelTables.Image.Png.Header

namespace PixelTables.Image.Png

structure Chunk where
  kind : Nat
  data : ByteArray
  intact : Bool

namespace Chunk

def header : Nat := Binary.tag "IHDR"

def palette : Nat := Binary.tag "PLTE"

def transparency : Nat := Binary.tag "tRNS"

def imageData : Nat := Binary.tag "IDAT"

def frameControl : Nat := Binary.tag "fcTL"

def frameData : Nat := Binary.tag "fdAT"

def colorCodes : Nat := Binary.tag "cICP"

def mastering : Nat := Binary.tag "mDCV"

def lightLevel : Nat := Binary.tag "cLLI"

def background : Nat := Binary.tag "bKGD"

/-- A reader that does not know a chunk may skip it: its name starts with a small letter. -/
def isOptional (kind : Nat) : Bool := kind.testBit 29

def head? (bytes : ByteArray) (place : Nat) : Option (Nat × Nat) := do
  let length ← Binary.u32? bytes place
  let kind ← Binary.u32? bytes (place + 4)
  some (kind, length)

def at? (bytes : ByteArray) (place : Nat) : Option (Chunk × Nat) := do
  let (kind, length) ← head? bytes place
  let checked ← Binary.slice? bytes (place + 4) (4 + length)
  let checksum ← Binary.u32? bytes (place + 8 + length)
  some (⟨kind, checked.extract 4 (4 + length), (Binary.crc32 checked).toNat = checksum⟩,
    place + 12 + length)

end Chunk

/-- What the chunks before the image data tell: colors by index; what is transparent, which for an
    indexed picture is the opacity of each index and otherwise a color; the kinds of the
    descriptions that count; and how many pictures of an animation have been placed. -/
structure Preamble where
  palette : Option ByteArray := none
  transparency : Option ByteArray := none
  descriptions : List Nat := []
  frames : Nat := 0

namespace Preamble

def addPalette (p : Preamble) (data : ByteArray) : Option Preamble :=
  if p.palette.isNone ∧ 3 ≤ data.size ∧ data.size ≤ 768 then some { p with palette := some data }
  else none

/-- Transparency counts if it is the first to fit the kind of picture: behind the palette if the
    picture is indexed, at least a whole color otherwise, never beside an alpha channel, and from
    one to 256 bytes. -/
def addTransparency (p : Preamble) (h : Header) (data : ByteArray) : Preamble :=
  let fits := match h.color with
    | .indexed => p.palette.isSome && 1 ≤ data.size
    | .gray => 2 ≤ data.size
    | .rgb => 6 ≤ data.size
    | .grayAlpha | .rgba => false
  if fits && data.size ≤ 256 && p.transparency.isNone then { p with transparency := some data }
  else p

/-- A description of `length` bytes counts if it is the first of its kind that is whole. What is
    shorter is skipped, and what is longer is refused. -/
def addDescription (p : Preamble) (kind length : Nat) (data : ByteArray) : Option Preamble :=
  if kind ∈ p.descriptions ∨ data.size < length then some p
  else if data.size = length then some { p with descriptions := kind :: p.descriptions }
  else none

def addColorCodes (p : Preamble) (data : ByteArray) : Option Preamble :=
  match data[2]?, data[3]? with
  | some differences, some full =>
    if Chunk.colorCodes ∈ p.descriptions ∨ differences = 0 ∧ full ≤ 1 then
      p.addDescription Chunk.colorCodes 4 data
    else none
  | _, _ => some p

def addBackground (p : Preamble) (h : Header) (data : ByteArray) : Option Preamble :=
  if Chunk.background ∈ p.descriptions then some p
  else
    let length := match h.color with
      | .indexed => 1
      | .gray | .grayAlpha => 2
      | .rgb | .rgba => 6
    if h.color = .indexed ∧ p.palette.isNone then none
    else if data.size = length then
      some { p with descriptions := Chunk.background :: p.descriptions }
    else some p

/-- Pictures of an animation that are placed before the image data are numbered from zero on, fill
    the whole picture, and name one of three ways to make room for the next and one of two to be
    drawn. -/
def addFrame (p : Preamble) (h : Header) (data : ByteArray) : Option Preamble := do
  let disposal ← data[24]?
  let blending ← data[25]?
  if Binary.u32? data 0 = some p.frames ∧ Binary.u32? data 4 = some h.width
      ∧ Binary.u32? data 8 = some h.height ∧ Binary.u32? data 12 = some 0
      ∧ Binary.u32? data 16 = some 0 ∧ disposal ≤ 2 ∧ blending ≤ 1 then
    some { p with frames := p.frames + 1 }
  else none

def add (p : Preamble) (h : Header) (chunk : Chunk) : Option Preamble :=
  if !chunk.intact then (if Chunk.isOptional chunk.kind then some p else none)
  else if chunk.kind = Chunk.palette then p.addPalette chunk.data
  else if chunk.kind = Chunk.transparency then some (p.addTransparency h chunk.data)
  else if chunk.kind = Chunk.frameControl then p.addFrame h chunk.data
  else if chunk.kind = Chunk.background then p.addBackground h chunk.data
  else if chunk.kind = Chunk.lightLevel then p.addDescription Chunk.lightLevel 8 chunk.data
  else if chunk.kind = Chunk.colorCodes ∧ p.palette.isNone then p.addColorCodes chunk.data
  else if chunk.kind = Chunk.mastering ∧ p.palette.isNone then
    p.addDescription Chunk.mastering 24 chunk.data
  else if Chunk.isOptional chunk.kind then some p
  else none

end Preamble

def readPreamble (bytes : ByteArray) (h : Header) : Nat → Nat → Preamble →
    Option (Preamble × Nat)
  | 0, _, _ => none
  | fuel + 1, place, p => do
    let (kind, _) ← Chunk.head? bytes place
    if kind = Chunk.imageData ∨ kind = Chunk.frameData then some (p, place)
    else
      let (chunk, place) ← Chunk.at? bytes place
      let p ← p.add h chunk
      readPreamble bytes h fuel place p

def readImageData (bytes : ByteArray) : Nat → Nat → ByteArray → Option ByteArray
  | 0, _, _ => none
  | fuel + 1, place, data => do
    let (kind, _) ← Chunk.head? bytes place
    if kind = Chunk.imageData then
      let (chunk, place) ← Chunk.at? bytes place
      if chunk.intact then readImageData bytes fuel place (data ++ chunk.data) else none
    else some data

/-- Joins the image data of the first picture of an animation. The numbers in front go on from those
    of the placed pictures, and damage is not looked for. -/
def readFrameData (bytes : ByteArray) : Nat → Nat → Nat → ByteArray → Option ByteArray
  | 0, _, _, _ => none
  | fuel + 1, number, place, data => do
    let (kind, _) ← Chunk.head? bytes place
    if kind = Chunk.frameData then
      let (chunk, place) ← Chunk.at? bytes place
      let own ← Binary.u32? chunk.data 0
      if own = number then
        readFrameData bytes fuel (number + 1) place
          (data ++ chunk.data.extract 4 chunk.data.size)
      else none
    else some data

def Preamble.readData (p : Preamble) (bytes : ByteArray) (place : Nat) : Option ByteArray := do
  let (kind, _) ← Chunk.head? bytes place
  if kind = Chunk.imageData then readImageData bytes bytes.size place .empty
  else if p.frames = 0 then none
  else readFrameData bytes bytes.size p.frames place .empty

def signature : List UInt8 := [0x89, 0x50, 0x4E, 0x47, 0x0D, 0x0A, 0x1A, 0x0A]

structure Parts where
  header : Header
  preamble : Preamble
  data : ByteArray

def Parts.ofBytes? (bytes : ByteArray) : Option Parts := do
  let start ← Binary.slice? bytes 0 8
  let (first, place) ← Chunk.at? bytes 8
  if start.toList = signature ∧ first.kind = Chunk.header ∧ first.intact then
    let header ← Header.ofBytes? first.data
    let (preamble, place) ← readPreamble bytes header bytes.size place {}
    let data ← preamble.readData bytes place
    some ⟨header, preamble, data⟩
  else none

end PixelTables.Image.Png
