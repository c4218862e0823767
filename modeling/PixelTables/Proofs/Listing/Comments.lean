import PixelTables.Proofs.Listing.RoundTrip

namespace PixelTables

/-- The texts that the note of a status quotes as they are. -/
def Status.texts : Status → List String
  | .rendered => []
  | .substituted fallback => [Listing.fileLabel fallback]
  | .degraded reason => [reason]

namespace Listing

/-- The logical lines of a text: a line that ends in a backslash goes on with the next one. -/
def logical : List Line → List Line
  | [] => []
  | line :: rest =>
    if line.getLast? = some '\\' then
      match logical rest with
      | [] => [line]
      | next :: more => (line.dropLast ++ next) :: more
    else line :: logical rest

def uncommented : Line → Line
  | '/' :: '/' :: _ => []
  | c :: rest => c :: uncommented rest
  | [] => []

def codeLines (ls : List Line) : List Line := (logical ls).map uncommented

def code (text : String) : List Line := codeLines (lines text)

def Ended (line : Line) : Prop := line.getLast? ≠ some '\\'

theorem logical_ne_nil {line : Line} {rest : List Line} : logical (line :: rest) ≠ [] := by
  rw [logical]
  split
  · split <;> simp
  · simp

theorem logical_append {a : List Line} (b : List Line) (ended : ∀ line ∈ a.getLast?, Ended line) :
    logical (a ++ b) = logical a ++ logical b := by
  induction a with
  | nil => rfl
  | cons line rest ih =>
    rw [List.cons_append, logical, logical]
    by_cases open_ : line.getLast? = some '\\'
    · rw [if_pos open_, if_pos open_]
      cases rest with
      | nil => exact absurd open_ (ended line (by simp))
      | cons next more =>
        rw [ih fun last member => ended last (by simpa using member)]
        cases found : logical (next :: more) with
        | nil => exact absurd found logical_ne_nil
        | cons first others => rfl
    · rw [if_neg open_, if_neg open_, List.cons_append]
      cases rest with
      | nil => rfl
      | cons next more => rw [ih fun last member => ended last (by simpa using member)]

theorem logical_of_ended {ls : List Line} (ended : ∀ line ∈ ls, Ended line) : logical ls = ls := by
  induction ls with
  | nil => rfl
  | cons line rest ih =>
    have first : line.getLast? ≠ some '\\' := ended line (by simp)
    rw [logical, if_neg first, ih fun other member => ended other (by simp [member])]

theorem uncommented_append {start : Line} (free : '/' ∉ start) (rest : Line) :
    uncommented (start ++ rest) = start ++ uncommented rest := by
  induction start with
  | nil => rfl
  | cons c start ih =>
    simp only [List.mem_cons, not_or] at free
    rw [List.cons_append, uncommented.eq_2, ih free.2, List.cons_append]
    intro more equal
    simp_all

theorem uncommented_of_free {line : Line} (free : '/' ∉ line) : uncommented line = line := by
  have whole := uncommented_append free []
  rwa [List.append_nil, uncommented, List.append_nil] at whole

theorem ended_of_free {line : Line} (free : '\\' ∉ line) : Ended line :=
  fun last => free (List.mem_of_getLast? last)

theorem ended_of_last {a b : Line} {c : Char} (last : b.getLast? = some c) (other : c ≠ '\\') :
    Ended (a ++ b) := by
  rw [Ended, List.getLast?_append, last, Option.some_or]
  simpa using other

theorem Ended.append {a b : Line} (first : Ended a) (second : Ended b) : Ended (a ++ b) := by
  rw [Ended] at second
  rw [Ended, List.getLast?_append]
  cases last : b.getLast? with
  | none => exact first
  | some c => rwa [last] at second

/-- Texts that stay in the line comment that they end: they do not end its line before, and do not
    draw the next line into it. -/
structure Contained (text : String) : Prop where
  oneLine : OneLine text
  ended : Ended text.toList

def comment (index : Nat) (e : TableEntry) : String :=
  toString index ++ ": " ++ e.label ++ statusNote e.status

theorem oneLine_statusNote (status : Status) :
    OneLine (statusNote status) ↔ ∀ text ∈ status.texts, OneLine text := by
  have framed : ∀ a b c : String, OneLine a → OneLine c → (OneLine (a ++ b ++ c) ↔ OneLine b) := by
    intro a b c before behind
    simp only [oneLine_append_iff, before, behind, true_and, and_true]
  cases status with
  | rendered => exact iff_of_true (by decide) (by simp [Status.texts])
  | substituted fallback =>
    rw [Status.texts, List.forall_mem_singleton]
    exact framed " (fallback: " _ ")" (by decide) (by decide)
  | degraded reason =>
    rw [Status.texts, List.forall_mem_singleton]
    exact framed " (blank: " _ ")" (by decide) (by decide)

theorem oneLine_comment (index : Nat) (e : TableEntry) :
    OneLine (comment index e) ↔ OneLine e.label ∧ ∀ text ∈ e.status.texts, OneLine text := by
  have colon : OneLine ": " := by decide
  simp only [comment, oneLine_append_iff, oneLine_nat, colon, oneLine_statusNote, true_and]

theorem ended_comment {index : Nat} {e : TableEntry}
    (label : e.status = .rendered → Ended e.label.toList) : Ended (comment index e).toList := by
  -- every note ends in a parenthesis
  have closed : (∃ text, statusNote e.status = text ++ ")") → Ended (comment index e).toList := by
    rintro ⟨text, note⟩
    rw [comment, note, ← String.append_assoc, String.toList_append]
    exact ended_of_last (c := ')') (by decide) (by decide)
  cases status : e.status with
  | rendered =>
    have number : Ended (toString index ++ ": ").toList := by
      rw [String.toList_append]
      exact ended_of_last (c := ' ') (by decide) (by decide)
    have whole : comment index e = toString index ++ ": " ++ e.label := by
      rw [comment, status, statusNote, String.append_empty]
    rw [whole, String.toList_append]
    exact number.append (label status)
  | substituted fallback => exact closed ⟨" (fallback: " ++ fileLabel fallback, by rw [status]; rfl⟩
  | degraded reason => exact closed ⟨" (blank: " ++ reason, by rw [status]; rfl⟩

def opening (e : TableEntry) : String := "    [" ++ e.id ++ "] = \x7b "

theorem entryOpen_comment (index : Nat) (e : TableEntry) :
    entryOpen index e ++ statusNote e.status = opening e ++ "// " ++ comment index e := by
  simp [entryOpen, opening, comment, toString, ← String.toList_inj]

def bareLines (t : Table) (e : TableEntry) : List Line :=
  (opening e).toList ::
    (e.cell.rows.map fun row => rowLine t.shape.layout t.format row.toList) ++ ["    \x7d,".toList]

section Entry

variable {t : Table} {e : TableEntry} {index : Nat}

theorem not_mem_opening (identifier : isIdentifier e.id = true) {c : Char}
    (other : Text.isAsciiAlphanumeric c = false) (down : c ≠ '_')
    (mark : c ∉ "    [".toList ++ "] = \x7b ".toList) : c ∉ (opening e).toList := by
  simp only [List.mem_append, not_or] at mark
  simp only [opening, String.toList_append, List.mem_append, not_or]
  exact ⟨⟨mark.1, not_mem_identifier identifier other down⟩, mark.2⟩

theorem uncommented_entryOpen (identifier : isIdentifier e.id = true) :
    uncommented (entryOpen index e ++ statusNote e.status).toList = (opening e).toList := by
  have free : '/' ∉ (opening e).toList := not_mem_opening identifier (by decide) (by decide) (by decide)
  have slashes : "// ".toList = ['/', '/', ' '] := by decide
  rw [entryOpen_comment, String.toList_append, String.toList_append, List.append_assoc,
    uncommented_append free, slashes]
  simp [uncommented]

theorem uncommented_entryLines (t : Table) (index : Nat) (identifier : isIdentifier e.id = true) :
    (entryLines t index e).map uncommented = bareLines t e := by
  have rows : ∀ row : Array UInt32, uncommented (rowLine t.shape.layout t.format row.toList) =
      rowLine t.shape.layout t.format row.toList := fun row =>
    uncommented_of_free (not_mem_rowLine (by decide) (by decide) _ _ _)
  have last : uncommented "    \x7d,".toList = "    \x7d,".toList := uncommented_of_free (by decide)
  simp only [entryLines, bareLines, List.cons_append, List.map_cons, List.map_append, List.map_map,
    List.map_nil, uncommented_entryOpen identifier, last, Function.comp_def, rows]

theorem entryLines_physical (t : Table) (identifier : isIdentifier e.id = true)
    (contained : Contained (comment index e)) :
    ∀ line ∈ entryLines t index e, '\n' ∉ line ∧ Ended line := by
  intro line member
  simp only [entryLines, List.cons_append, List.mem_cons, List.mem_append, List.mem_map,
    List.not_mem_nil, or_false] at member
  rcases member with rfl | ⟨row, _, rfl⟩ | rfl
  · rw [entryOpen_comment]
    have oneLine : OneLine (opening e) := not_mem_opening identifier (by decide) (by decide) (by decide)
    have free : '\\' ∉ (opening e).toList :=
      not_mem_opening identifier (by decide) (by decide) (by decide)
    refine ⟨(oneLine.append (by decide)).append contained.oneLine, ?_⟩
    rw [String.toList_append, String.toList_append]
    exact ((ended_of_free free).append (ended_of_free (by decide))).append contained.ended
  · exact ⟨rowLine_free _ _ _, ended_of_free (not_mem_rowLine (by decide) (by decide) _ _ _)⟩
  · exact ⟨by decide, ended_of_free (by decide)⟩

end Entry

theorem preamble_ended (t : Table) (header : String) :
    ∀ line ∈ ((preamble t header).flatMap (Text.pieces '\n')).getLast?, Ended line := by
  obtain ⟨front, before, split⟩ :=
    Text.pieces_append_free '\n' (declarator t).toList " = \x7b".toList (by decide)
  have ended : Ended (before ++ " = \x7b".toList) :=
    ended_of_last (c := '\x7b') (by decide) (by decide)
  have last : ((preamble t header).flatMap (Text.pieces '\n')).getLast? =
      some (before ++ " = \x7b".toList) := by
    have opened : (declarator t ++ " = \x7b").toList = (declarator t).toList ++ " = \x7b".toList :=
      String.toList_append
    simp only [preamble, opened, List.flatMap_cons, List.flatMap_nil, split, List.append_nil,
      ← List.append_assoc, List.getLast?_concat]
  rw [last]
  rintro line same
  rwa [← Option.mem_some.mp same]

def arrayLines (t : Table) : List Line :=
  (t.entries.toList.zipIdx.flatMap fun x => entryLines t x.2 x.1) ++ ["\x7d;".toList]

theorem lines_data_pieces (t : Table) (header : String) :
    lines (data t header) = (preamble t header).flatMap (Text.pieces '\n') ++
      ((arrayLines t).flatMap (Text.pieces '\n') ++ [[]]) := by
  rw [lines, data_lines, unlines, Text.pieces_flatMap, dataLines, List.flatMap_append,
    List.append_assoc]
  rfl

section Array

variable {t : Table} (identifiers : ∀ e ∈ t.entries, isIdentifier e.id = true)
include identifiers

theorem uncommented_arrayLines : (arrayLines t).map uncommented =
    t.entries.toList.flatMap (bareLines t) ++ ["\x7d;".toList] := by
  have last : uncommented "\x7d;".toList = "\x7d;".toList := uncommented_of_free (by decide)
  rw [arrayLines, List.map_append, List.map_flatMap, List.map_singleton, last]
  conv_rhs => rw [← List.zipIdx_map_fst 0 t.entries.toList, List.flatMap_map]
  congr 1
  refine List.flatMap_congr fun x member => uncommented_entryLines t x.2 (identifiers x.1 ?_)
  exact Array.mem_toList_iff.mp (List.fst_mem_of_mem_zipIdx member)

variable (contained : ∀ index e, t.entries[index]? = some e → Contained (comment index e))
include contained

theorem arrayLines_physical : ∀ line ∈ arrayLines t, '\n' ∉ line ∧ Ended line := by
  intro line member
  rcases List.mem_append.mp member with member | member
  · obtain ⟨⟨e, index⟩, present, inside⟩ := List.mem_flatMap.mp member
    have found : t.entries[index]? = some e := by
      simpa using List.mem_zipIdx_iff_getElem?.mp present
    exact entryLines_physical t (identifiers e (Array.mem_of_getElem? found)) (contained index e found)
      line inside
  · rw [List.mem_singleton.mp member]
    exact ⟨by decide, ended_of_free (by decide)⟩

/-- Where the comments stay in their lines, the code of the data is what stands in front of the
    entries, and of every entry all lines but its comment. -/
theorem code_data (header : String) :
    code (data t header) = codeLines ((preamble t header).flatMap (Text.pieces '\n')) ++
      (t.entries.toList.flatMap (bareLines t) ++ ["\x7d;".toList, []]) := by
  have physical := arrayLines_physical identifiers contained
  have ended : ∀ line ∈ arrayLines t ++ [[]], Ended line := by
    intro line member
    rcases List.mem_append.mp member with member | member
    · exact (physical line member).2
    · rw [List.mem_singleton.mp member]
      exact ended_of_free (by simp)
  rw [code, lines_data_pieces, Text.flatMap_pieces fun line member => (physical line member).1,
    codeLines, logical_append _ (preamble_ended t header), logical_of_ended ended, List.map_append,
    List.map_append, uncommented_arrayLines identifiers, List.append_assoc]
  rfl

end Array

theorem data_of_mem_dataLines {t : Table} {header text : String}
    (member : text.toList ∈ dataLines t header) :
    ∃ before after : String, data t header = before ++ (text ++ "\n") ++ after := by
  obtain ⟨front, back, split⟩ := List.append_of_mem member
  have newline : "\n".toList = ['\n'] := by decide
  refine ⟨String.ofList (unlines front), String.ofList (unlines back), ?_⟩
  rw [← String.toList_inj, data_lines, split, ← List.singleton_append, unlines_append, unlines_append]
  simp [unlines, newline]

theorem data_comment {t : Table} {index : Nat} {e : TableEntry} (found : t.entries[index]? = some e)
    (header : String) : ∃ before after : String,
      data t header = before ++ (opening e ++ "// " ++ comment index e ++ "\n") ++ after := by
  have present : (e, index) ∈ t.entries.toList.zipIdx :=
    List.mem_zipIdx_iff_getElem?.mpr (by simpa using found)
  have first : (opening e ++ "// " ++ comment index e).toList ∈ entryLines t index e := by
    rw [← entryOpen_comment]
    exact List.mem_cons_self
  apply data_of_mem_dataLines
  exact List.mem_append_right _ (List.mem_append_left _ (List.mem_flatMap.mpr ⟨_, present, first⟩))

/-- The comments of a table stay comments: each ends with its line, and none of them changes what is
    read as code. -/
structure CommentsStay (t : Table) : Prop where
  contained : ∀ index e, t.entries[index]? = some e → Contained (comment index e)
  code : ∀ header, code (data t header) =
    codeLines ((preamble t header).flatMap (Text.pieces '\n')) ++
      (t.entries.toList.flatMap (bareLines t) ++ ["\x7d;".toList, []])

theorem commentsStay_iff {t : Table} (identifiers : ∀ e ∈ t.entries, isIdentifier e.id = true) :
    CommentsStay t ↔ ∀ index e, t.entries[index]? = some e → Contained (comment index e) :=
  ⟨CommentsStay.contained, fun contained => ⟨contained, code_data identifiers contained⟩⟩

end Listing

end PixelTables
