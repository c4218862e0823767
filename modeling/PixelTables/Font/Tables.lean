import PixelTables.Binary.Numbers

namespace PixelTables

structure Font where
  bytes : ByteArray
  offset : Nat

namespace Font

open Binary (tag u16? u32? slice?)

def tags : List Nat := [0x00010000, tag "OTTO", tag "true"]

def collectionTag : Nat := tag "ttcf"

def startsAt (bytes : ByteArray) (offset : Nat) : Bool :=
  match u32? bytes offset with
  | some start => start ∈ tags
  | none => false

def ofBytes? (bytes : ByteArray) : Option Font := do
  let start ← u32? bytes 0
  if start = collectionTag then
    let count ← u32? bytes 8
    let offset ← u32? bytes 12
    if 0 < count ∧ startsAt bytes offset then some ⟨bytes, offset⟩ else none
  else if start ∈ tags then some ⟨bytes, 0⟩
  else none

def tableCount? (f : Font) : Option Nat := u16? f.bytes (f.offset + 4)

def recordPlace (f : Font) (index : Nat) : Nat := f.offset + 12 + 16 * index

def search (f : Font) (wanted : Nat) : Nat → Nat → Nat → Option Nat
  | 0, _, _ => none
  | fuel + 1, low, high =>
    if low < high then do
      let middle := low + (high - low) / 2
      let found ← u32? f.bytes (f.recordPlace middle)
      if wanted < found then f.search wanted fuel low middle
      else if found < wanted then f.search wanted fuel (middle + 1) high
      else some middle
    else none

def start? (f : Font) (name : String) : Option Nat := do
  let count ← f.tableCount?
  let index ← f.search (tag name) (count + 1) 0 count
  let start ← u32? f.bytes (f.recordPlace index + 8)
  let length ← u32? f.bytes (f.recordPlace index + 12)
  if start + length < UInt32.size then some start else none

structure TableRecord where
  tag : Nat
  start : Nat
  length : Nat
  deriving DecidableEq, Repr

def record? (f : Font) (index : Nat) : Option TableRecord := do
  let tag ← u32? f.bytes (f.recordPlace index)
  let start ← u32? f.bytes (f.recordPlace index + 8)
  let length ← u32? f.bytes (f.recordPlace index + 12)
  some ⟨tag, start, length⟩

def isListed (bytes : ByteArray) : Bool :=
  if u32? bytes 0 = some collectionTag then
    ((u32? bytes 8).bind fun count => slice? bytes 12 (4 * count)).isSome
  else true

def directory? (f : Font) : Option (List TableRecord) :=
  if isListed f.bytes then do
    let count ← f.tableCount?
    (List.range count).mapM f.record?
  else none

/-- The record of a table: the last of equal ones if all are ordered by tag, else the first. -/
def TableRecord.find? (wanted : Nat) (records : List TableRecord) : Option TableRecord :=
  if (records.zip records.tail).all fun (a, b) => a.tag ≤ b.tag then
    records.reverse.find? (·.tag = wanted)
  else records.find? (·.tag = wanted)

/-- The bytes of a table of at least `least` bytes. One that starts at zero is none. -/
def table? (f : Font) (records : List TableRecord) (name : String) (least : Nat) :
    Option ByteArray := do
  let record ← TableRecord.find? (tag name) records
  if record.start = 0 then none
  else
    let bytes ← slice? f.bytes record.start record.length
    if least ≤ bytes.size then some bytes else none

end Font

end PixelTables
