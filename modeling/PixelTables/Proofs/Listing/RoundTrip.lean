import PixelTables.Proofs.Listing.Lines
import PixelTables.Proofs.Raster.Rows
import PixelTables.Proofs.Table.Built

namespace PixelTables.Listing

theorem not_mem_intercalate {c : Char} {sep : Line} {words : List Line} (between : c ∉ sep)
    (within : ∀ word ∈ words, c ∉ word) : c ∉ sep.intercalate words := by
  induction words with
  | nil => simp
  | cons word words ih =>
    have first := within word (by simp)
    cases words with
    | nil => simpa using first
    | cons next rest =>
      rw [List.intercalate_cons_cons]
      simp only [List.mem_append, not_or]
      exact ⟨⟨first, between⟩, ih fun other member => within other (by simp [member])⟩

theorem rowFrame_marks (layout : Layout) :
    (rowFrame layout).1.toList ++ (rowFrame layout).2.toList ++ [',', ' '] ⊆
      ['\x7b', '\x7d', ',', ' '] := by
  cases layout <;> simp [rowFrame]

theorem not_mem_rowLine {c : Char} (other : c.isAlphanum = false)
    (mark : c ∉ ['\x7b', '\x7d', ',', ' ']) (layout : Layout) (format : WordFormat)
    (row : List UInt32) : c ∉ rowLine layout format row := by
  have frame : c ∉ (rowFrame layout).1.toList ++ (rowFrame layout).2.toList ++ [',', ' '] :=
    fun member => mark (rowFrame_marks layout member)
  simp only [List.mem_append, not_or] at frame
  have words : c ∉ [',', ' '].intercalate (row.map fun w => (word format w).toList) := by
    apply not_mem_intercalate frame.2
    intro cs member
    obtain ⟨w, _, rfl⟩ := List.mem_map.mp member
    exact not_mem_word other
  simp only [rowLine, List.mem_append, not_or]
  exact ⟨frame.1.1, words, frame.1.2⟩

theorem rowLine_free (layout : Layout) (format : WordFormat) (row : List UInt32) :
    '\n' ∉ rowLine layout format row :=
  not_mem_rowLine (by decide) (by decide) layout format row

theorem statusNote_oneLine {t : Table} {header : String} (plain : Plain t header) {e : TableEntry}
    (member : e ∈ t.entries) : OneLine (statusNote e.status) := by
  cases status : e.status with
  | rendered => decide
  | substituted path =>
    have label := plain.fallbacks e member path status
    exact (OneLine.append (a := " (fallback: ") (by decide) label).append (by decide)
  | degraded reason =>
    have text := plain.reasons e member reason status
    exact (OneLine.append (a := " (blank: ") (by decide) text).append (by decide)

theorem entryOpen_oneLine {index : Nat} {e : TableEntry} (identifier : isIdentifier e.id = true)
    (label : OneLine e.label) : OneLine (entryOpen index e) := by
  have id : OneLine e.id := not_mem_identifier identifier (by decide) (by decide)
  exact (((((OneLine.append (a := "    [") (by decide) id).append (by decide)).append
    (oneLine_nat index)).append (by decide)).append label)

theorem readId?_entryOpen (index : Nat) {e : TableEntry} (identifier : isIdentifier e.id = true)
    (note : String) : readId? (entryOpen index e ++ note).toList = some e.id := by
  have parts : (entryOpen index e ++ note).toList = "    [".toList ++ (e.id.toList ++
      ("] = \x7b // ".toList ++ (toString index ++ ": " ++ e.label ++ note).toList)) := by
    simp [entryOpen, toString]
  have inside : ∀ c ∈ e.id.toList, decide (c ≠ ']') = true := by
    intro c member
    rw [decide_eq_true_eq]
    rintro rfl
    exact not_mem_identifier identifier (by decide) (by decide) member
  have closing : "] = \x7b // ".toList = ']' :: " = \x7b // ".toList := by decide
  rw [readId?, parts, isPrefixOf?_append]
  simp only [Option.bind_eq_bind, Option.bind_some]
  rw [List.dropWhile_append_of_pos inside, List.takeWhile_append_of_pos inside]
  generalize (toString index ++ ": " ++ e.label ++ note).toList = comment
  have stopped : ("] = \x7b // ".toList ++ comment).dropWhile (· ≠ ']') =
      "] = \x7b // ".toList ++ comment := by simp [closing]
  have nothing : ("] = \x7b // ".toList ++ comment).takeWhile (· ≠ ']') = [] := by simp [closing]
  rw [stopped, nothing, isPrefixOf?_append, List.append_nil, String.ofList_toList]
  rfl

def listed (e : TableEntry) : Listed := ⟨e.id, e.cell.rows.map fun row => row.toList.map UInt32.toNat⟩

theorem readEntries?_entry (t : Table) (index : Nat) {e : TableEntry} (rest : List Line)
    (identifier : isIdentifier e.id = true) (columns : 0 < e.cell.width) :
    readEntries? t.shape.layout e.cell.height (entryLines t index e ++ rest) =
      (readEntries? t.shape.layout e.cell.height rest).map (listed e :: ·) := by
  have rows : (e.cell.rows.map fun row => rowLine t.shape.layout t.format row.toList).mapM
      (readRow? t.shape.layout) = some (listed e).rows := by
    rw [List.mapM_map]
    apply mapM_of_forall
    intro row member
    apply readRow?_rowLine
    have size := e.cell.size_of_mem_rows columns member
    intro empty
    rw [Array.toList_eq_nil_iff.mp empty] at size
    simp at size
    omega
  have length : (e.cell.rows.map fun row => rowLine t.shape.layout t.format row.toList).length =
      e.cell.height := by rw [List.length_map, e.cell.length_rows columns]
  -- an entry that opened like the end of the array would be taken for it
  have other : (entryOpen index e ++ statusNote e.status).toList ≠ "\x7d;".toList := by
    intro same
    have first := congrArg List.head? same
    simp [entryOpen, toString] at first
  rw [entryLines]
  generalize e.cell.rows.map (fun row => rowLine t.shape.layout t.format row.toList) = body
    at rows length ⊢
  have beyond : body.drop (body.length + 1) = [] := List.drop_eq_nil_of_le (Nat.le_succ _)
  simp only [List.cons_append, List.append_assoc]
  rw [readEntries?, if_neg other, readId?_entryOpen index identifier, ← length, List.take_left, rows,
    List.getElem?_append_right (Nat.le_refl _), Nat.sub_self, List.drop_append, beyond]
  cases later : readEntries? t.shape.layout body.length rest <;> simp [listed, later]

theorem readEntries?_entries (t : Table) {height : Nat} {entries : List TableEntry} (first : Nat)
    (identifiers : ∀ e ∈ entries, isIdentifier e.id = true)
    (sizes : ∀ e ∈ entries, 0 < e.cell.width ∧ e.cell.height = height) (rest : List Line) :
    readEntries? t.shape.layout height (((entries.zipIdx first).flatMap fun e => entryLines t e.2 e.1) ++
      "\x7d;".toList :: rest) = some (entries.map listed) := by
  induction entries generalizing first with
  | nil => simp [readEntries?]
  | cons e entries ih =>
    obtain ⟨columns, same⟩ := sizes e (by simp)
    have tail := ih (first + 1) (fun other member => identifiers other (by simp [member]))
      fun other member => sizes other (by simp [member])
    rw [List.zipIdx_cons, List.flatMap_cons, List.append_assoc]
    have entry := readEntries?_entry t first (e := e) (((entries.zipIdx (first + 1)).flatMap fun e =>
      entryLines t e.2 e.1) ++ "\x7d;".toList :: rest) (identifiers e (by simp)) columns
    rw [same, tail] at entry
    exact entry

theorem arrayBody_preamble (t : Table) (header : String) (body : List Line) :
    arrayBody (preamble t header ++ body) = body := by
  have banner : " = \x7b".toList.isSuffixOf "// Generated by cellbake. Do not edit.".toList = false := by
    decide
  have blank : " = \x7b".toList.isSuffixOf ([] : Line) = false := by decide
  have inclusion : " = \x7b".toList.isSuffixOf ("#include \"" ++ header ++ "\"").toList = false := by
    simp only [List.isSuffixOf, String.toList_append, List.reverse_append]
    rfl
  have opening : " = \x7b".toList.isSuffixOf (declarator t ++ " = \x7b").toList = true := by
    simp [List.isSuffixOf_iff_suffix]
  simp only [arrayBody, preamble, List.cons_append, List.nil_append, List.dropWhile_cons, banner, blank,
    inclusion, opening, Bool.not_false, Bool.not_true, ↓reduceIte, Bool.false_eq_true, List.drop_one,
    List.tail_cons]

theorem preamble_free {t : Table} {header : String} (plain : Plain t header) :
    ∀ line ∈ preamble t header, '\n' ∉ line := by
  have inclusion : OneLine ("#include \"" ++ header ++ "\"") :=
    (OneLine.append (by decide) plain.header).append (by decide)
  have opening : OneLine (declarator t ++ " = \x7b") :=
    plain.namesInLine.declarator.append (by decide)
  intro line member
  simp only [preamble, List.mem_cons, List.not_mem_nil, or_false] at member
  rcases member with rfl | rfl | rfl | rfl | rfl
  · decide
  · decide
  · exact inclusion
  · decide
  · exact opening

theorem entryLines_free {t : Table} {header : String} (plain : Plain t header) {e : TableEntry}
    (present : e ∈ t.entries) (identifier : isIdentifier e.id = true) (index : Nat) :
    ∀ line ∈ entryLines t index e, '\n' ∉ line := by
  intro line member
  simp only [entryLines, List.cons_append, List.mem_cons, List.mem_append, List.mem_map,
    List.not_mem_nil, or_false] at member
  rcases member with rfl | ⟨row, _, rfl⟩ | rfl
  · exact (entryOpen_oneLine identifier (plain.labels e present)).append
      (statusNote_oneLine plain present)
  · exact rowLine_free _ _ _
  · decide

theorem lines_data {t : Table} {header : String} (plain : Plain t header)
    (identifiers : ∀ e ∈ t.entries, isIdentifier e.id = true) :
    lines (data t header) = dataLines t header ++ [[]] := by
  rw [lines, data_lines, unlines]
  apply Text.pieces_lines
  intro line member
  simp only [dataLines, List.mem_append, List.mem_flatMap, List.mem_singleton] at member
  rcases member with member | ⟨⟨e, index⟩, present, member⟩ | rfl
  · exact preamble_free plain line member
  · have entry : e ∈ t.entries := Array.mem_toList_iff.mp (List.fst_mem_of_mem_zipIdx present)
    exact entryLines_free plain entry (identifiers e entry) index line member
  · decide

theorem read?_data {t : Table} {header : String} (built : t.Built) (columns : 1 ≤ t.cellWidth)
    (identifiers : ∀ e ∈ t.entries, isIdentifier e.id = true) (plain : Plain t header) :
    read? t.shape.layout t.cellHeight (data t header) = some (t.entries.toList.map listed) := by
  rw [read?, lines_data plain identifiers, dataLines, List.append_assoc, arrayBody_preamble,
    List.append_assoc]
  apply readEntries?_entries
  · intro e member
    exact identifiers e (Array.mem_toList_iff.mp member)
  · intro e member
    obtain ⟨width, height⟩ := built.sound.sizes e (Array.mem_toList_iff.mp member)
    exact ⟨by omega, height⟩

theorem find?_listed {entries : List TableEntry} (distinct : (entries.map (·.id)).Nodup)
    {e : TableEntry} (member : e ∈ entries) :
    (entries.map listed).find? (·.id = e.id) = some (listed e) := by
  induction entries with
  | nil => cases member
  | cons first rest ih =>
    obtain ⟨fresh, distinct⟩ := List.nodup_cons.mp distinct
    rcases List.mem_cons.mp member with rfl | member
    · simp [listed]
    · have other : first.id ≠ e.id := by
        intro same
        exact fresh (List.mem_map.mpr ⟨e, member, same.symm⟩)
      simpa [listed, other] using ih distinct member

theorem flatten_listed {e : TableEntry} (columns : 0 < e.cell.width) :
    (listed e).rows.flatten = e.cell.samples.toList.map UInt32.toNat := by
  rw [← e.cell.flatten_rows columns, List.map_flatten, List.map_map]
  rfl

theorem subscript?_listed {t : Table} (built : t.Built) {e : TableEntry} (member : e ∈ t.entries)
    {x y : Nat} (beside : x < t.cellWidth) (below : y < t.cellHeight) :
    subscript? t.shape.layout t.cellWidth (t.entries.toList.map listed) e.id x y =
      (e.cell.get? x y).map UInt32.toNat := by
  obtain ⟨width, height⟩ := built.sound.sizes e member
  have columns : 0 < e.cell.width := by omega
  have found := find?_listed built.sound.distinct (Array.mem_toList_iff.mpr member)
  rw [subscript?, found, Option.bind_eq_bind, Option.bind_some]
  cases t.shape.layout with
  | grid =>
    rw [← e.cell.getElem_rows columns x y]
    simp only [listed, List.getElem?_map]
    cases e.cell.rows[y]? <;> simp
  | flat =>
    rw [flatten_listed columns, List.getElem?_map, Array.getElem?_toList, ← width,
      e.cell.getElem_samples (by omega) (by omega)]

/-- The data of a table can be read back: its identifiers in their order, the words of every entry
    row by row, and at each subscript the word of the cell. -/
theorem data_reads_back {t : Table} {header : String} (built : t.Built) (columns : 1 ≤ t.cellWidth)
    (identifiers : ∀ e ∈ t.entries, isIdentifier e.id = true) (plain : Plain t header) :
    ∃ listed, read? t.shape.layout t.cellHeight (data t header) = some listed ∧
      listed.map (·.id) = t.entries.toList.map (·.id) ∧
      listed.map (·.rows.flatten) =
        t.entries.toList.map (fun e => e.cell.samples.toList.map UInt32.toNat) ∧
      ∀ e ∈ t.entries, ∀ x < t.cellWidth, ∀ y < t.cellHeight, ∃ w, e.cell.get? x y = some w ∧
        subscript? t.shape.layout t.cellWidth listed e.id x y = some w.toNat := by
  refine ⟨_, read?_data built columns identifiers plain, ?_, ?_, ?_⟩
  · rw [List.map_map]
    rfl
  · rw [List.map_map]
    apply List.map_congr_left
    intro e member
    obtain ⟨width, _⟩ := built.sound.sizes e (Array.mem_toList_iff.mp member)
    exact flatten_listed (by omega)
  · intro e member x beside y below
    obtain ⟨width, height⟩ := built.sound.sizes e member
    cases word : e.cell.get? x y with
    | none =>
      have outside := (e.cell.get?_eq_none_iff x y).mp word
      omega
    | some w => exact ⟨w, rfl, by rw [subscript?_listed built member beside below, word, Option.map_some]⟩

def twoIcons : Table where
  name := "icons"
  stem := "ICON"
  cellWidth := 2
  cellHeight := 1
  format := .hex32
  entries := #[⟨"ICON_A", "a.png", .fill 2 1 0xFF000000, .degraded "missing a.png"⟩,
    ⟨"ICON_B", "b.png", ⟨2, 1, #[0xA1B2C3, 7], rfl⟩, .rendered⟩]

theorem twoIcons_built : twoIcons.Built := by
  have empty := Table.Built.new "icons" "ICON" 2 1 .hex32
  have first := empty.push (e := ⟨"ICON_A", "a.png", .fill 2 1 0xFF000000, .degraded "missing a.png"⟩)
    (Table.push_eq_ok.mpr ⟨rfl, rfl, by decide, rfl, rfl⟩)
  exact first.push (e := ⟨"ICON_B", "b.png", ⟨2, 1, #[0xA1B2C3, 7], rfl⟩, .rendered⟩)
    (Table.push_eq_ok.mpr ⟨rfl, rfl, by decide, rfl, rfl⟩)

theorem twoIcons_plain : Plain twoIcons "icons.h" where
  name := by decide
  stem := by decide
  countName := by decide
  sizeName := by decide
  header := by decide
  labels := by decide
  reasons e member reason status := by
    rcases List.mem_cons.mp (Array.mem_toList_iff.mpr member) with rfl | member
    · obtain rfl := Status.degraded.inj status
      decide
    · rw [List.mem_singleton.mp member] at status
      cases status
  fallbacks e member path status := by
    rcases List.mem_cons.mp (Array.mem_toList_iff.mpr member) with rfl | member
    · cases status
    · rw [List.mem_singleton.mp member] at status
      cases status

theorem data_reads_back_two_icons :
    ∃ listed, read? .grid 1 (data twoIcons "icons.h") = some listed ∧
      listed.map (·.id) = ["ICON_A", "ICON_B"] ∧
      listed.map (·.rows.flatten) = [[0xFF000000, 0xFF000000], [0xA1B2C3, 7]] := by
  obtain ⟨listed, read, ids, words, _⟩ :=
    data_reads_back twoIcons_built (by decide) (by decide) twoIcons_plain
  exact ⟨listed, read, ids, words⟩

end PixelTables.Listing
