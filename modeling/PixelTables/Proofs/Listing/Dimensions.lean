import PixelTables.Proofs.Listing.Declarations
import PixelTables.Proofs.Listing.RoundTrip

namespace PixelTables.Listing

def initializers (t : Table) : List (List (List UInt32)) :=
  t.entries.toList.map fun e => e.cell.rows.map Array.toList

structure ReadAlike (t : Table) (header : String) : Prop where
  array : ∃ array xs, declared? (declarations t header) = some array ∧
    initialized? (data t header) = some array ∧ readExtents? array = some xs ∧
    List.Forall₂ (Extent.Measures (readDefinitions (declarations t header))) xs (dimensions t)
  words : 1 ≤ t.cellWidth → ∃ listed, read? t.shape.layout t.cellHeight (data t header) = some listed ∧
    listed.map (·.rows.map List.length) =
      List.replicate t.size (List.replicate t.cellHeight t.cellWidth)

structure Agreement (t : Table) (header : String) : Prop where
  declared : (declarations t header).toList = unlines (declarationLines t header)
  initialized : (data t header).toList = unlines (dataLines t header)
  written : declarator t = elementType t.format ++ " " ++ t.name ++
    String.join ((extents t).map fun x => "[" ++ x.text ++ "]")
  measured : List.Forall₂ (Extent.Measures (definitions t header)) (extents t) (dimensions t)
  filled : ∀ rows ∈ initializers t, rows.flatten.length = t.cellHeight * t.cellWidth ∧
    (1 ≤ t.cellWidth → rows.map List.length = List.replicate t.cellHeight t.cellWidth)
  total : ((initializers t).flatten.flatten.length : Int) = (dimensions t).foldr (· * ·) 1
  read : Tidy t header → ReadAlike t header

section Agreement

variable {t : Table} {header : String}

theorem initialized?_data (tidy : Tidy t header) :
    initialized? (data t header) = some (declarator t).toList := by
  have banner : " = \x7b".toList.isSuffixOf? "// Generated by cellbake. Do not edit.".toList = none := by
    decide
  have blank : " = \x7b".toList.isSuffixOf? ([] : Line) = none := by decide
  have inclusion : " = \x7b".toList.isSuffixOf? ("#include \"" ++ header ++ "\"").toList = none := by
    simp [List.isSuffixOf?, List.isPrefixOf?]
  have opening : " = \x7b".toList.isSuffixOf? (declarator t ++ " = \x7b").toList =
      some (declarator t).toList := by
    rw [String.toList_append, isSuffixOf?_append]
  rw [initialized?, lines_data tidy.toPlain tidy.ids, dataLines, preamble]
  simp only [List.cons_append, List.findSome?_cons, banner, blank, inclusion, opening]

theorem rows_filled (built : t.Built) {rows : List (List UInt32)} (member : rows ∈ initializers t) :
    rows.flatten.length = t.cellHeight * t.cellWidth ∧
      (1 ≤ t.cellWidth → rows.map List.length = List.replicate t.cellHeight t.cellWidth) := by
  obtain ⟨e, present, rfl⟩ := List.mem_map.mp member
  obtain ⟨width, height⟩ := built.sound.sizes e (Array.mem_toList_iff.mp present)
  rw [← width, ← height]
  exact ⟨e.cell.length_flatten_rows, e.cell.lengths_rows⟩

theorem length_flatten_flatten {α : Type} {n : Nat} {cells : List (List (List α))}
    (each : ∀ rows ∈ cells, rows.flatten.length = n) :
    cells.flatten.flatten.length = cells.length * n := by
  induction cells with
  | nil => simp
  | cons rows rest ih =>
    have first := each rows (by simp)
    have later := ih fun other member => each other (by simp [member])
    rw [List.flatten_cons, List.flatten_append, List.length_append, first, later, List.length_cons,
      Nat.succ_mul, Nat.add_comm]

theorem initializers_total (built : t.Built) :
    (initializers t).flatten.flatten.length = t.size * (t.cellHeight * t.cellWidth) := by
  have entries : (initializers t).length = t.size := by simp [initializers, Table.size]
  rw [length_flatten_flatten fun rows member => (rows_filled built member).1, entries]

theorem spelled_definition (tidy : Tidy t header) {name : String}
    (defined : name ∈ (definitions t header).names) : Spelled name := by
  rw [definitions, Macros.names, List.map_cons, List.mem_cons] at defined
  rcases defined with rfl | constant
  · exact spelled_includeGuard header
  · obtain ⟨d, present, rfl⟩ := List.mem_map.mp constant
    exact spelled_identifier (tidy.constants d present)

theorem readAlike (built : t.Built) (distinct : (definitions t header).names.Nodup)
    (tidy : Tidy t header) : ReadAlike t header := by
  have measured := extents_measure distinct fun d member => List.mem_cons_of_mem _ member
  constructor
  · have names : ∀ x ∈ extents t, ∀ name ∈ x.names, Spelled name := by
      -- what is mentioned is defined, and what is defined is spelled as a name
      intro x present name mentioned
      have once := mentioned_once measured x present name mentioned
      exact spelled_definition tidy (List.count_pos_iff.mp (by omega))
    refine ⟨_, _, declared?_declarations tidy, initialized?_data tidy,
      readExtents?_declarator (spelled_identifier tidy.array) names, ?_⟩
    rw [readDefinitions_declarations tidy]
    exact measured
  · intro columns
    refine ⟨_, read?_data built columns tidy.ids tidy.toPlain, ?_⟩
    have counts : (t.entries.toList.map listed).map (·.rows.map List.length) =
        (initializers t).map (·.map List.length) := by
      simp [initializers, listed, Function.comp_def]
    rw [counts, List.eq_replicate_iff]
    refine ⟨by simp [initializers, Table.size], fun lengths member => ?_⟩
    obtain ⟨rows, present, rfl⟩ := List.mem_map.mp member
    exact (rows_filled built present).2 columns

/-- Where neither two constants nor a constant and the include guard share a name, the array is
    declared with the dimensions of the table, and the data fill it. -/
theorem dimensions_agree (built : t.Built) (distinct : (definitions t header).names.Nodup) :
    Agreement t header where
  declared := declarations_lines t header
  initialized := data_lines t header
  written := declarator_extents t
  measured := extents_measure distinct fun d member => List.mem_cons_of_mem _ member
  filled _ member := rows_filled built member
  total := by
    rw [initializers_total built, dimensions]
    cases t.shape.layout <;> simp
  read := readAlike built distinct

end Agreement

theorem twoIcons_tidy : Tidy twoIcons "icons.h" where
  toPlain := twoIcons_plain
  constants := by decide
  values := by decide
  array := by decide
  ids := by decide

theorem dimensions_agree_two_icons :
    (definitions twoIcons "icons.h").names.Nodup ∧ Agreement twoIcons "icons.h" ∧
      ∃ array xs, declared? (declarations twoIcons "icons.h") = some array ∧
        initialized? (data twoIcons "icons.h") = some array ∧ readExtents? array = some xs ∧
        List.Forall₂ (Extent.Measures (readDefinitions (declarations twoIcons "icons.h"))) xs
          [2, 1, 2] := by
  have distinct : (definitions twoIcons "icons.h").names.Nodup := by decide
  have agreement := dimensions_agree twoIcons_built distinct
  exact ⟨distinct, agreement, (agreement.read twoIcons_tidy).array⟩

/-- The count of this table has the name that the include guard gets from `app_icons.h`. -/
def guardedIcons : Table where
  name := "app_icons"
  stem := "APP_ICONS"
  cellWidth := 1
  cellHeight := 1
  format := .hex32
  shape := { countName := "H" }
  entries := #[⟨"APP_ICONS_A", "a.png", .fill 1 1 7, .rendered⟩]

theorem guardedIcons_built : guardedIcons.Built := by
  have empty := (Table.Built.new "app_icons" "APP_ICONS" 1 1 .hex32).withShape { countName := "H" }
  exact empty.push (e := ⟨"APP_ICONS_A", "a.png", .fill 1 1 7, .rendered⟩)
    (Table.push_eq_ok.mpr ⟨rfl, rfl, by decide, rfl, rfl⟩)

theorem guardedIcons_tidy : Tidy guardedIcons "app_icons.h" where
  name := by decide
  stem := by decide
  countName := by decide
  sizeName := by decide
  header := by decide
  labels := by decide
  reasons e member reason status := by
    rw [List.mem_singleton.mp (Array.mem_toList_iff.mpr member)] at status
    cases status
  fallbacks e member path status := by
    rw [List.mem_singleton.mp (Array.mem_toList_iff.mpr member)] at status
    cases status
  constants := by decide
  values := by decide
  array := by decide
  ids := by decide

/-- Distinct constants are not enough: one of them may be defined a second time by the guard. -/
theorem guard_defines_constant :
    guardedIcons.Built ∧ ((allDefines guardedIcons).map Prod.fst).Nodup ∧
      Extent.constant "APP_ICONS_H" ∈ extents guardedIcons ∧
      (readDefinitions (declarations guardedIcons "app_icons.h")).names.count "APP_ICONS_H" = 2 := by
  refine ⟨guardedIcons_built, by decide, by decide, ?_⟩
  rw [readDefinitions_declarations guardedIcons_tidy]
  decide

end PixelTables.Listing
