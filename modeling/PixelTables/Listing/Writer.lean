import PixelTables.Listing

namespace PixelTables

/-- What text is written to. A write tells whether it succeeded, and its sink may have taken a part of
    the text even if not. -/
structure Sink (σ : Type) where
  write : String → σ → Bool × σ

abbrev Writing (σ : Type) := ExceptT Unit (StateM σ)

def Writing.into {σ : Type} (w : Writing σ Unit) (s : σ) : Except Unit Unit × σ := w.run s

namespace Sink

variable {σ : Type}

def put (sink : Sink σ) (text : String) : Writing σ Unit := ExceptT.mk fun s =>
  match sink.write text s with
  | (true, s) => (.ok (), s)
  | (false, s) => (.error (), s)

def putAll (sink : Sink σ) (parts : List String) : Writing σ Unit := parts.forM sink.put

/-- What a sink with a limit holds: the text that it took, how many characters it still takes, and
    how many writes it has refused. -/
structure Limited where
  taken : String := ""
  room : Nat
  refused : Nat := 0
  deriving DecidableEq, Repr

def limited : Sink Limited where
  write text s :=
    if s.refused = 0 ∧ text.length ≤ s.room then
      (true, { s with taken := s.taken ++ text, room := s.room - text.length })
    else
      (false, ⟨s.taken ++ String.ofList (text.toList.take s.room), 0, s.refused + 1⟩)

end Sink

namespace Listing

variable {σ : Type}

def writeDefine (sink : Sink σ) (nameParts : List String) (value : String) : Writing σ Unit :=
  sink.putAll (["#define "] ++ nameParts ++ [" ", value, "\n"])

def writeSides (sink : Sink σ) (t : Table) : Writing σ Unit :=
  if usesSize t then writeDefine sink [t.stem, "_", t.shape.sizeName] (toString t.cellWidth)
  else do
    writeDefine sink [t.stem, "_WIDTH"] (toString t.cellWidth)
    writeDefine sink [t.stem, "_HEIGHT"] (toString t.cellHeight)

def writeDeclarations (sink : Sink σ) (t : Table) (header : String) : Writing σ Unit := do
  let guard := includeGuard header
  sink.putAll [banner, "\n"]
  sink.putAll ["#ifndef ", guard, "\n"]
  sink.putAll ["#define ", guard, "\n\n"]
  writeSides sink t
  writeDefine sink [t.stem, "_", t.shape.countName] (toString (t.size + t.shape.countOffset.toNat))
  t.defines.forM fun d => writeDefine sink [d.1] d.2
  sink.put "\nenum \x7b\n"
  t.entries.toList.zipIdx.forM fun e => sink.putAll ["    ", e.1.id, " = ", toString e.2, ",\n"]
  sink.put "\x7d;\n\n"
  sink.putAll ["extern ", declarator t, ";\n\n"]
  sink.put "#endif\n"

def writeStatus (sink : Sink σ) : Status → Writing σ Unit
  | .rendered => pure ()
  | .substituted fallback => sink.putAll [" (fallback: ", fileLabel fallback, ")"]
  | .degraded reason => sink.putAll [" (blank: ", reason, ")"]

def writeWord (sink : Sink σ) : WordFormat → UInt32 → Writing σ Unit
  | .byte, w => sink.put (toString w.toNat)
  | .hex32, w => sink.putAll ["0x", Text.hexUpper 8 w.toNat]

def writeWordAt (sink : Sink σ) (format : WordFormat) (w : UInt32) : Nat → Writing σ Unit
  | 0 => writeWord sink format w
  | _ + 1 => do
    sink.put ", "
    writeWord sink format w

def writeRow (sink : Sink σ) (t : Table) (row : List UInt32) : Writing σ Unit := do
  sink.put (rowOpen t.shape.layout)
  row.zipIdx.forM fun w => writeWordAt sink t.format w.1 w.2
  sink.put (rowClose t.shape.layout)

def writeEntry (sink : Sink σ) (t : Table) (index : Nat) (e : TableEntry) : Writing σ Unit := do
  sink.putAll ["    [", e.id, "] = \x7b // ", toString index, ": ", e.label]
  writeStatus sink e.status
  sink.put "\n"
  e.cell.rows.forM fun row => writeRow sink t row.toList
  sink.put "    \x7d,\n"

def writeData (sink : Sink σ) (t : Table) (header : String) : Writing σ Unit := do
  sink.putAll [banner, "\n"]
  sink.putAll ["#include \"", header, "\"\n\n"]
  sink.putAll [declarator t, " = \x7b\n"]
  t.entries.toList.zipIdx.forM fun e => writeEntry sink t e.2 e.1
  sink.put "\x7d;\n"

end Listing

end PixelTables
