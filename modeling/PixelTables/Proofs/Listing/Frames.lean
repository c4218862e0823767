import PixelTables.Listing
import PixelTables.Proofs.Table.Push

namespace PixelTables.Listing

def declarationsFront (t : Table) (header : String) : String :=
  String.join ([banner, "\n", s!"#ifndef {includeGuard header}\n", s!"#define {includeGuard header}\n\n"]
    ++ (allDefines t).map (fun d => defineLine d.1 d.2) ++ ["\nenum \x7b\n"])

def declarationsBack (t : Table) : String :=
  String.join ["\x7d;\n\n", s!"extern {declarator t};\n\n", "#endif\n"]

theorem declarations_eq (t : Table) (header : String) : declarations t header =
    declarationsFront t header ++ String.join (t.entries.toList.mapIdx fun i e => indexLine i e.id) ++
      declarationsBack t := by
  simp only [declarations, declarationPieces, String.join_append, declarationsFront, declarationsBack]

def dataFront (t : Table) (header : String) : String :=
  String.join [banner, "\n", s!"#include \"{header}\"\n\n", s!"{declarator t} = \x7b\n"]

def entryBody (t : Table) (e : TableEntry) : String :=
  String.join ([statusNote e.status, "\n"] ++ e.cell.rows.flatMap (fun row => rowPieces t row.toList)
    ++ ["    \x7d,\n"])

theorem join_flatten (texts : List (List String)) :
    String.join texts.flatten = String.join (texts.map String.join) := by
  induction texts with
  | nil => rfl
  | cons text rest ih => rw [List.flatten_cons, String.join_append, ih, List.map_cons, String.join_cons]

theorem join_entryPieces (t : Table) (index : Nat) (e : TableEntry) :
    String.join (entryPieces t index e) = entryOpen index e ++ entryBody t e := by
  simp only [entryPieces, entryBody, String.join_append, String.join_cons, String.append_assoc]

theorem data_eq (t : Table) (header : String) : data t header = dataFront t header ++
    String.join (t.entries.toList.mapIdx fun i e => entryOpen i e ++ entryBody t e) ++ "\x7d;\n" := by
  simp only [data, dataPieces, String.join_append, join_flatten, List.mapIdx_eq_zipIdx_map, List.map_map,
    Function.comp_def, join_entryPieces, dataFront, String.join_cons, String.join_nil, String.append_empty]

theorem declarationsFront_extend (t : Table) {made other : List TableEntry}
    (size : made.length = other.length) (header : String) :
    declarationsFront (t.extend made) header = declarationsFront (t.extend other) header := by
  have count : countDefine (t.extend made) = countDefine (t.extend other) := by
    have same : (t.extend made).size = (t.extend other).size := by
      simp only [Table.size, Table.extend, Array.size_append, List.size_toArray, size]
    rw [countDefine, countDefine, same]
    rfl
  rw [declarationsFront, declarationsFront, allDefines, allDefines, count]
  rfl

end PixelTables.Listing
