import PixelTables.Table
import PixelTables.Text.Ascii

namespace PixelTables

structure Artifact where
  path : Path
  contents : String
  deriving DecidableEq, Repr

namespace Listing

def banner : String := "// Generated by cellbake. Do not edit.\n"

def includeGuard (header : String) : String :=
  String.ofList (header.toList.map fun c =>
    if Text.isAsciiAlphanumeric c then Text.upperAscii c else '_')

def usesSize (t : Table) : Bool := t.shape.layout = .flat && t.cellWidth = t.cellHeight

def elementType : WordFormat → String
  | .byte => "unsigned char"
  | .hex32 => "unsigned int"

def countDimension (t : Table) : String :=
  if t.shape.countOffset = 0 then t.constant t.shape.countName
  else s!"{t.constant t.shape.countName} - {t.shape.countOffset}"

def cellDimensions (t : Table) : String :=
  let width := t.constant "WIDTH"
  let height := t.constant "HEIGHT"
  let side := t.constant t.shape.sizeName
  match t.shape.layout with
  | .grid => s!"[{height}][{width}]"
  | .flat => if usesSize t then s!"[{side} * {side}]" else s!"[{height} * {width}]"

def declarator (t : Table) : String :=
  s!"{elementType t.format} {t.name}[{countDimension t}]{cellDimensions t}"

def defineLine (name value : String) : String := s!"#define {name} {value}\n"

def sideDefines (t : Table) : List (String × String) :=
  if usesSize t then [(t.constant t.shape.sizeName, toString t.cellWidth)]
  else [(t.constant "WIDTH", toString t.cellWidth), (t.constant "HEIGHT", toString t.cellHeight)]

def countDefine (t : Table) : String × String :=
  (t.constant t.shape.countName, toString (t.size + t.shape.countOffset.toNat))

def allDefines (t : Table) : List (String × String) :=
  sideDefines t ++ countDefine t :: t.defines

def indexLine (index : Nat) (id : String) : String := s!"    {id} = {index},\n"

def declarationPieces (t : Table) (header : String) : List String :=
  let guard := includeGuard header
  [banner, "\n", s!"#ifndef {guard}\n", s!"#define {guard}\n\n"]
    ++ (allDefines t).map (fun d => defineLine d.1 d.2)
    ++ ["\nenum \x7b\n"]
    ++ t.entries.toList.mapIdx (fun index e => indexLine index e.id)
    ++ ["\x7d;\n\n", s!"extern {declarator t};\n\n", "#endif\n"]

def word : WordFormat → UInt32 → String
  | .byte, w => toString w.toNat
  | .hex32, w => "0x" ++ Text.hexUpper 8 w.toNat

def rowOpen : Layout → String
  | .grid => "        \x7b"
  | .flat => "        "

def rowClose : Layout → String
  | .grid => "\x7d,\n"
  | .flat => ",\n"

def rowPieces (t : Table) (row : List UInt32) : List String :=
  rowOpen t.shape.layout :: ((row.map (word t.format)).intersperse ", ")
    ++ [rowClose t.shape.layout]

def fileLabel (p : Path) : String := p.fileName.getD p.text

def statusNote : Status → String
  | .rendered => ""
  | .substituted fallback => s!" (fallback: {fileLabel fallback})"
  | .degraded reason => s!" (blank: {reason})"

def entryOpen (index : Nat) (e : TableEntry) : String :=
  s!"    [{e.id}] = \x7b // {index}: {e.label}"

def entryPieces (t : Table) (index : Nat) (e : TableEntry) : List String :=
  [entryOpen index e, statusNote e.status, "\n"]
    ++ e.cell.rows.flatMap (fun row => rowPieces t row.toList)
    ++ ["    \x7d,\n"]

def dataPieces (t : Table) (header : String) : List String :=
  [banner, "\n", s!"#include \"{header}\"\n\n", s!"{declarator t} = \x7b\n"]
    ++ (t.entries.toList.mapIdx (entryPieces t)).flatten
    ++ ["\x7d;\n"]

def declarations (t : Table) (header : String) : String := String.join (declarationPieces t header)

def data (t : Table) (header : String) : String := String.join (dataPieces t header)

def artifacts (t : Table) (declarationsPath dataPath : Path) : List Artifact :=
  let header := declarationsPath.fileName.getD (t.name ++ ".h")
  [⟨declarationsPath, declarations t header⟩, ⟨dataPath, data t header⟩]

def pour : List String → Nat → String × Bool
  | [], _ => ("", true)
  | piece :: rest, limit =>
    if piece.length ≤ limit then
      let (taken, complete) := pour rest (limit - piece.length)
      (piece ++ taken, complete)
    else (String.ofList (piece.toList.take limit), false)

end Listing

end PixelTables
