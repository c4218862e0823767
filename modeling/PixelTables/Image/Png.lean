import PixelTables.Image.Deflate
import PixelTables.Image.Png.Chunks
import PixelTables.Image.Png.Scanline
import PixelTables.Raster

namespace PixelTables.Image.Png

structure PassRows where
  pass : Pass
  rows : Array ByteArray

def readPasses (h : Header) (bytes : ByteArray) : List Pass → Nat → Option (List PassRows)
  | [], _ => some []
  | pass :: rest, place => do
    let (rows, place) ← readRows bytes h.stride (h.rowBytes (pass.columns h.width))
      (pass.rows h.height) place .empty
    let more ← readPasses h bytes rest place
    some (⟨pass, rows.toArray⟩ :: more)

/-- Brings a sample to eight bits. Sixteen bits are rounded to the nearest eight, and fewer are
    stretched to the full range. -/
def toByte (depth v : Nat) : UInt8 :=
  if depth = 16 then ((v + 128) / 257).toUInt8 else (v * (255 / (1 <<< depth - 1))).toUInt8

/-- The samples of the transparent color. Samples of up to eight bits are given by the second of
    their two bytes, and whatever follows them counts for nothing. With more than samples of sixteen
    bits, no color is transparent. -/
def Preamble.key? (p : Preamble) (h : Header) : Option (List Nat) := do
  let data ← p.transparency
  let samples ← (List.range h.color.channels).mapM fun i => Binary.u16? data (2 * i)
  if h.depth < 16 then some (samples.map (· % 256))
  else if data.size = 2 * h.color.channels then some samples
  else none

/-- The color of an index: black where the palette ends, and opaque unless it is given an
    opacity. More opacities than colors count for nothing. -/
def Preamble.indexed (p : Preamble) (palette : ByteArray) (index : Nat) : Rgba :=
  let opacity := match p.transparency with
    | some data => if data.size ≤ palette.size / 3 then data[index]?.getD 255 else 255
    | none => 255
  match palette[3 * index]?, palette[3 * index + 1]?, palette[3 * index + 2]? with
  | some red, some green, some blue => ⟨red, green, blue, opacity⟩
  | _, _, _ => ⟨0, 0, 0, opacity⟩

def pixel (h : Header) (key : Option (List Nat)) (samples : List Nat) : Rgba :=
  let byte := toByte h.depth
  let opacity := if key = some samples then 0 else 255
  match h.color, samples with
  | .gray, [v] => ⟨byte v, byte v, byte v, opacity⟩
  | .rgb, [r, g, b] => ⟨byte r, byte g, byte b, opacity⟩
  | .grayAlpha, [v, a] => ⟨byte v, byte v, byte v, byte a⟩
  | .rgba, [r, g, b, a] => ⟨byte r, byte g, byte b, byte a⟩
  | _, _ => .transparent

def samples (h : Header) (passes : List PassRows) (x y : Nat) : List Nat :=
  let found := passes.findSome? fun p => do
    let (column, line) ← p.pass.position? x y
    let row ← p.rows[line]?
    (List.range h.color.channels).mapM fun i =>
      sample? h.depth row (column * h.color.channels + i)
  found.getD []

/-- Why a file is not decoded: it breaks a rule of the format, or all that is wrong with it is a
    palette that ends within a color. -/
inductive Defect where
  | malformed
  | partialColor
  deriving DecidableEq, Repr

def hasRow (h : Header) (raw : ByteArray) : Bool :=
  h.passes.head?.any fun pass =>
    (readRows raw h.stride (h.rowBytes (pass.columns h.width)) 1 0 .empty).isSome

def picture? (h : Header) (p : Preamble) (raw : ByteArray) : Option (Raster Rgba) := do
  let passes ← readPasses h raw h.passes 0
  match h.color, p.palette with
  | .indexed, none => none
  | .indexed, some palette =>
    some (.ofFn h.width h.height fun x y =>
      p.indexed palette ((samples h passes x y).headD 0))
  | _, _ =>
    let key := p.key? h
    some (.ofFn h.width h.height fun x y => pixel h key (samples h passes x y))

def endsWithinColor (h : Header) (p : Preamble) : Bool :=
  h.color = .indexed && p.palette.any (·.size % 3 ≠ 0)

/-- Decodes a picture. Whatever follows the image data is of no account. A palette that ends within a
    color is looked at when the first row has been read. -/
def decode (bytes : ByteArray) : Except Defect (Raster Rgba) :=
  let read := do
    let parts ← Parts.ofBytes? bytes
    let raw ← Deflate.decompress parts.data
    some (parts, raw)
  match read with
  | none => .error .malformed
  | some (parts, raw) =>
    let h := parts.header
    if endsWithinColor h parts.preamble && hasRow h raw then .error .partialColor
    else match picture? h parts.preamble raw with
      | some picture => .ok picture
      | none => .error .malformed

end PixelTables.Image.Png
