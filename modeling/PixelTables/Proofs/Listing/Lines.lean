import PixelTables.Profile.Validation
import PixelTables.Proofs.Listing.Words

namespace PixelTables.Listing

def entryLines (t : Table) (index : Nat) (e : TableEntry) : List Line :=
  (entryOpen index e ++ statusNote e.status).toList ::
    (e.cell.rows.map fun row => rowLine t.shape.layout t.format row.toList) ++ ["    \x7d,".toList]

def preamble (t : Table) (header : String) : List Line :=
  ["// Generated by cellbake. Do not edit.".toList, [], ("#include \"" ++ header ++ "\"").toList, [],
    (declarator t ++ " = \x7b").toList]

def dataLines (t : Table) (header : String) : List Line :=
  preamble t header ++
    ((t.entries.toList.zipIdx.flatMap fun e => entryLines t e.2 e.1) ++ ["\x7d;".toList])

def unlines (ls : List Line) : List Char := ls.flatMap (· ++ ['\n'])

theorem unlines_append (a b : List Line) : unlines (a ++ b) = unlines a ++ unlines b :=
  List.flatMap_append

theorem flatMap_intersperse (sep : String) (words : List String) :
    (words.intersperse sep).flatMap String.toList = sep.toList.intercalate (words.map String.toList) := by
  induction words with
  | nil => rfl
  | cons word words ih =>
    cases words with
    | nil => simp
    | cons next rest => simp_all [List.intercalate_cons_cons]

theorem rowPieces_lines (t : Table) (row : List UInt32) :
    (rowPieces t row).flatMap String.toList = rowLine t.shape.layout t.format row ++ ['\n'] := by
  rw [rowPieces, rowLine, List.cons_append, List.flatMap_cons, List.flatMap_append, flatMap_intersperse]
  cases t.shape.layout <;> simp [rowOpen, rowClose, rowFrame, Function.comp_def]

theorem entryPieces_lines (t : Table) (index : Nat) (e : TableEntry) :
    (entryPieces t index e).flatMap String.toList = unlines (entryLines t index e) := by
  simp [entryPieces, entryLines, unlines, List.flatMap_assoc, rowPieces_lines, List.flatMap_map]

theorem data_lines (t : Table) (header : String) :
    (data t header).toList = unlines (dataLines t header) := by
  have entries : (t.entries.toList.mapIdx (entryPieces t)).flatten.flatMap String.toList =
      unlines (t.entries.toList.zipIdx.flatMap fun e => entryLines t e.2 e.1) := by
    simp only [unlines, List.mapIdx_eq_zipIdx_map, ← List.flatMap_def, List.flatMap_assoc,
      entryPieces_lines]
  rw [data, String.toList_join, dataPieces, dataLines, preamble, List.flatMap_append,
    List.flatMap_append, entries, unlines_append, unlines_append]
  simp [unlines, banner, toString]

def OneLine (text : String) : Prop := '\n' ∉ text.toList

instance (text : String) : Decidable (OneLine text) := inferInstanceAs (Decidable (_ ∉ _))

theorem oneLine_append_iff {a b : String} : OneLine (a ++ b) ↔ OneLine a ∧ OneLine b := by
  simp only [OneLine, String.toList_append, List.mem_append, not_or]

theorem OneLine.append {a b : String} (first : OneLine a) (second : OneLine b) : OneLine (a ++ b) :=
  oneLine_append_iff.mpr ⟨first, second⟩

theorem oneLine_nat (n : Nat) : OneLine (toString n) := Text.not_mem_toString (by decide) n

/-- Nothing that is written into the data as it is ends a line there. -/
structure Plain (t : Table) (header : String) : Prop where
  name : OneLine t.name
  stem : OneLine t.stem
  countName : OneLine t.shape.countName
  sizeName : OneLine t.shape.sizeName
  header : OneLine header
  labels : ∀ e ∈ t.entries, OneLine e.label
  reasons : ∀ e ∈ t.entries, ∀ reason, e.status = .degraded reason → OneLine reason
  fallbacks : ∀ e ∈ t.entries, ∀ path, e.status = .substituted path → OneLine (fileLabel path)

def Spelled (name : String) : Prop := ∀ c ∈ name.toList, Text.isAsciiAlphanumeric c = true ∨ c = '_'

instance (name : String) : Decidable (Spelled name) := List.decidableBAll _ name.toList

theorem Spelled.free {name : String} (spelled : Spelled name) {c : Char}
    (other : Text.isAsciiAlphanumeric c = false) (down : c ≠ '_') : c ∉ name.toList := by
  intro member
  rcases spelled c member with good | same
  · rw [good] at other
    cases other
  · exact down same

theorem spelled_identifier {id : String} (identifier : isIdentifier id = true) : Spelled id := by
  intro c member
  simp only [isIdentifier] at identifier
  cases chars : id.toList with
  | nil => simp [chars] at member
  | cons first rest =>
    rw [chars] at identifier member
    simp only [Bool.and_eq_true, Bool.or_eq_true, decide_eq_true_eq, List.all_eq_true] at identifier
    rcases List.mem_cons.mp member with rfl | member
    · rcases identifier.1 with letter | line
      · exact .inl (by simp [Text.isAsciiAlphanumeric, letter])
      · exact .inr line
    · exact identifier.2 c member

theorem not_mem_identifier {id : String} (identifier : isIdentifier id = true) {c : Char}
    (other : Text.isAsciiAlphanumeric c = false) (down : c ≠ '_') : c ∉ id.toList :=
  (spelled_identifier identifier).free other down

structure NamesInLine (t : Table) : Prop where
  name : OneLine t.name
  stem : OneLine t.stem
  countName : OneLine t.shape.countName
  sizeName : OneLine t.shape.sizeName

theorem Plain.namesInLine {t : Table} {header : String} (plain : Plain t header) : NamesInLine t :=
  ⟨plain.name, plain.stem, plain.countName, plain.sizeName⟩

namespace NamesInLine

variable {t : Table} (names : NamesInLine t)
include names

theorem constant {name : String} (text : OneLine name) : OneLine (t.constant name) :=
  (names.stem.append (by decide)).append text

theorem countDimension : OneLine (countDimension t) := by
  rw [Listing.countDimension]
  split
  · exact names.constant names.countName
  · exact ((names.constant names.countName).append (by decide)).append (oneLine_nat _)

theorem cellDimensions : OneLine (cellDimensions t) := by
  have width : OneLine (t.constant "WIDTH") := names.constant (by decide)
  have height : OneLine (t.constant "HEIGHT") := names.constant (by decide)
  have side := names.constant names.sizeName
  have text : ∀ a b c d e : String, OneLine b → OneLine d → OneLine a → OneLine c → OneLine e →
      OneLine (a ++ b ++ c ++ d ++ e) := fun a b c d e hb hd ha hc he =>
    (((ha.append hb).append hc).append hd).append he
  rw [Listing.cellDimensions]
  split
  · exact text _ _ _ _ _ height width (by decide) (by decide) (by decide)
  · split
    · exact text _ _ _ _ _ side side (by decide) (by decide) (by decide)
    · exact text _ _ _ _ _ height width (by decide) (by decide) (by decide)

theorem declarator : OneLine (declarator t) := by
  have element : OneLine (elementType t.format) := by cases t.format <;> decide
  exact ((((element.append (by decide)).append names.name).append (by decide)).append
    names.countDimension).append (by decide) |>.append names.cellDimensions

end NamesInLine

end PixelTables.Listing
