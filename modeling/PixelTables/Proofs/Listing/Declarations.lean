import PixelTables.Proofs.Listing.Extents
import PixelTables.Proofs.Listing.Lines

namespace PixelTables.Listing

def readDefinition? (line : Line) : Option (String × String) :=
  ("#define ".toList.isPrefixOf? line).map fun rest =>
    (String.ofList (rest.takeWhile (· ≠ ' ')), String.ofList ((rest.dropWhile (· ≠ ' ')).drop 1))

def readDefinitions (text : String) : Macros := (lines text).filterMap readDefinition?

def readExtern? (line : Line) : Option Line :=
  ("extern ".toList.isPrefixOf? line).bind ";".toList.isSuffixOf?

def declared? (text : String) : Option Line := (lines text).findSome? readExtern?

def initialized? (text : String) : Option Line := (lines text).findSome? " = \x7b".toList.isSuffixOf?

def readExtent? (cs : Line) : Option Extent :=
  match Text.pieces ' ' cs with
  | [name] => some (.constant (String.ofList name))
  | [name, ['-'], offset] => (readWord? offset).map (.less (String.ofList name))
  | [left, ['*'], right] => some (.product (String.ofList left) (String.ofList right))
  | _ => none

def readExtents? (declarator : Line) : Option (List Extent) :=
  ((Text.pieces '[' declarator).drop 1).mapM fun piece =>
    ("]".toList.isSuffixOf? piece).bind readExtent?

theorem isPrefixOf?_of_head {c : Char} {start line : Line} (other : line.head? ≠ some c) :
    (c :: start).isPrefixOf? line = none := by
  cases line with
  | nil => rfl
  | cons first rest =>
    have differ : ¬ c = first := by
      rintro rfl
      exact other rfl
    simp [List.isPrefixOf?, differ]

theorem readDefinition?_of_head {line : Line} (other : line.head? ≠ some '#') :
    readDefinition? line = none := by
  have start : "#define ".toList = '#' :: "define ".toList := by decide
  rw [readDefinition?, start, isPrefixOf?_of_head other]
  rfl

theorem readExtern?_of_head {line : Line} (other : line.head? ≠ some 'e') :
    readExtern? line = none := by
  have start : "extern ".toList = 'e' :: "xtern ".toList := by decide
  rw [readExtern?, start, isPrefixOf?_of_head other]
  rfl

theorem upperAscii_cases (c : Char) :
    Text.upperAscii c = c ∨
      ∃ n < 26, c.toNat = 0x61 + n ∧ Text.upperAscii c = Char.ofNat (0x41 + n) := by
  rw [Text.upperAscii]
  split
  · rename_i lower
    simp only [Bool.and_eq_true, decide_eq_true_eq] at lower
    have code : c.toNat - 0x20 = 0x41 + (c.toNat - 0x61) := by omega
    exact .inr ⟨c.toNat - 0x61, by omega, by omega, by rw [code]⟩
  · exact .inl rfl

theorem isAsciiAlphanumeric_upperAscii {c : Char} (good : Text.isAsciiAlphanumeric c = true) :
    Text.isAsciiAlphanumeric (Text.upperAscii c) = true := by
  have capital : ∀ n < 26, Text.isAsciiAlphanumeric (Char.ofNat (0x41 + n)) = true := by decide
  rcases upperAscii_cases c with same | ⟨n, small, _, upper⟩
  · rw [same]
    exact good
  · rw [upper]
    exact capital n small

theorem spelled_includeGuard (header : String) : Spelled (includeGuard header) := by
  intro c member
  rw [includeGuard, String.toList_ofList, List.mem_map] at member
  obtain ⟨other, _, rfl⟩ := member
  by_cases good : Text.isAsciiAlphanumeric other = true
  · rw [if_pos good]
    exact .inl (isAsciiAlphanumeric_upperAscii good)
  · rw [if_neg good]
    exact .inr rfl

theorem readDefinition?_of_parts {name : String} {rest : Line} (spelled : Spelled name)
    (stops : rest.takeWhile (· ≠ ' ') = []) :
    readDefinition? ("#define ".toList ++ (name.toList ++ rest)) =
      some (name, String.ofList ((rest.dropWhile (· ≠ ' ')).drop 1)) := by
  have inside : ∀ c ∈ name.toList, decide (c ≠ ' ') = true := by
    intro c member
    rw [decide_eq_true_eq]
    rintro rfl
    exact spelled.free (by decide) (by decide) member
  rw [readDefinition?, isPrefixOf?_append, Option.map_some, List.takeWhile_append_of_pos inside,
    List.dropWhile_append_of_pos inside, stops, List.append_nil, String.ofList_toList]

theorem readDefinition?_line {name : String} (spelled : Spelled name) (value : String) :
    readDefinition? ("#define " ++ name ++ " " ++ value).toList = some (name, value) := by
  have parts : ("#define " ++ name ++ " " ++ value).toList =
      "#define ".toList ++ (name.toList ++ ' ' :: value.toList) := by simp
  rw [parts, readDefinition?_of_parts spelled (by simp)]
  simp

theorem readDefinition?_bare {name : String} (spelled : Spelled name) :
    readDefinition? ("#define " ++ name).toList = some (name, "") := by
  have parts : ("#define " ++ name).toList = "#define ".toList ++ (name.toList ++ []) := by simp
  rw [parts, readDefinition?_of_parts spelled (by simp)]
  simp

theorem readExtent?_text {x : Extent} (spelled : ∀ name ∈ x.names, Spelled name) :
    readExtent? x.text.toList = some x := by
  have word : ∀ name ∈ x.names, Text.pieces ' ' name.toList = [name.toList] := fun name member =>
    Text.pieces_of_free ((spelled name member).free (by decide) (by decide))
  cases x with
  | constant name =>
    rw [readExtent?, Extent.text, word name (by simp [Extent.names])]
    simp
  | less name offset =>
    have number : Text.pieces ' ' (toString offset).toList = [(toString offset).toList] :=
      Text.pieces_of_free (Text.not_mem_toString (by decide) offset)
    have parts : (name ++ " - " ++ toString offset).toList =
        name.toList ++ ' ' :: (['-'] ++ ' ' :: (toString offset).toList) := by simp
    have dash : Text.pieces ' ' ['-'] = [['-']] := by decide
    rw [readExtent?, Extent.text, parts, Text.pieces_append, Text.pieces_append, number, dash,
      word name (by simp [Extent.names])]
    simp only [List.cons_append, List.nil_append, readWord?_toString, String.ofList_toList,
      Option.map_some]
  | product left right =>
    have parts : (left ++ " * " ++ right).toList = left.toList ++ ' ' :: (['*'] ++ ' ' :: right.toList) := by
      simp
    have star : Text.pieces ' ' ['*'] = [['*']] := by decide
    rw [readExtent?, Extent.text, parts, Text.pieces_append, Text.pieces_append, star,
      word left (by simp [Extent.names]), word right (by simp [Extent.names])]
    simp only [List.cons_append, List.nil_append, String.ofList_toList]

theorem not_mem_extent {x : Extent} (spelled : ∀ name ∈ x.names, Spelled name) :
    '[' ∉ x.text.toList := by
  have word : ∀ name ∈ x.names, '[' ∉ name.toList := fun name member =>
    (spelled name member).free (by decide) (by decide)
  cases x with
  | constant name => exact word name (by simp [Extent.names])
  | less name offset =>
    have first := word name (by simp [Extent.names])
    have number := Text.not_mem_toString (c := '[') (by decide) offset
    simp only [Extent.text, String.toList_append, List.mem_append, not_or]
    exact ⟨⟨first, by decide⟩, number⟩
  | product left right =>
    have first := word left (by simp [Extent.names])
    have second := word right (by simp [Extent.names])
    simp only [Extent.text, String.toList_append, List.mem_append, not_or]
    exact ⟨⟨first, by decide⟩, second⟩

theorem readExtents?_declarator {t : Table} (array : Spelled t.name)
    (names : ∀ x ∈ extents t, ∀ name ∈ x.names, Spelled name) :
    readExtents? (declarator t).toList = some (extents t) := by
  have parts : (declarator t).toList = (elementType t.format ++ " " ++ t.name).toList ++
      ((extents t).map fun x => x.text.toList ++ "]".toList).flatMap ('[' :: ·) := by
    rw [declarator_extents]
    simp [List.flatMap_map]
  have head : '[' ∉ (elementType t.format ++ " " ++ t.name).toList := by
    have element : '[' ∉ (elementType t.format).toList := by cases t.format <;> decide
    have name := array.free (c := '[') (by decide) (by decide)
    simp [element, name]
  have inner : ∀ piece ∈ (extents t).map fun x => x.text.toList ++ "]".toList, '[' ∉ piece := by
    intro piece member
    obtain ⟨x, present, rfl⟩ := List.mem_map.mp member
    rw [List.mem_append, not_or]
    exact ⟨not_mem_extent (names x present), by decide⟩
  rw [readExtents?, parts, Text.pieces_openings head inner, List.drop_one, List.tail_cons,
    List.mapM_map]
  have each : ∀ x ∈ extents t, ((fun piece => ("]".toList.isSuffixOf? piece).bind readExtent?) ∘
      fun x => x.text.toList ++ "]".toList) x = some (id x) := by
    intro x present
    rw [Function.comp_apply, isSuffixOf?_append, Option.bind_some, readExtent?_text (names x present), id]
  rw [mapM_of_forall each, List.map_id]

def guardLines (header : String) : List Line :=
  ["// Generated by cellbake. Do not edit.".toList, [], ("#ifndef " ++ includeGuard header).toList,
    ("#define " ++ includeGuard header).toList, []]

def defineLines (t : Table) : List Line :=
  (allDefines t).map fun d => ("#define " ++ d.1 ++ " " ++ d.2).toList

def enumLines (t : Table) : List Line :=
  [[], "enum \x7b".toList] ++
    (t.entries.toList.mapIdx fun i e => ("    " ++ e.id ++ " = " ++ toString i ++ ",").toList) ++
    ["\x7d;".toList, []]

def declarationLines (t : Table) (header : String) : List Line :=
  guardLines header ++ (defineLines t ++
    (enumLines t ++ [("extern " ++ declarator t ++ ";").toList, [], "#endif".toList]))

theorem declarations_lines (t : Table) (header : String) :
    (declarations t header).toList = unlines (declarationLines t header) := by
  have defines : ((allDefines t).map fun d => defineLine d.1 d.2).flatMap String.toList =
      unlines (defineLines t) := by
    simp [unlines, List.flatMap_map, defineLine, defineLines, toString]
  have indices : (t.entries.toList.mapIdx fun i e => indexLine i e.id).flatMap String.toList =
      unlines (t.entries.toList.mapIdx fun i e =>
        ("    " ++ e.id ++ " = " ++ toString i ++ ",").toList) := by
    simp [unlines, List.mapIdx_eq_zipIdx_map, List.flatMap_map, indexLine, toString]
  rw [declarations, String.toList_join, declarationPieces, declarationLines, guardLines, enumLines]
  simp only [List.flatMap_append, unlines_append, defines, indices]
  simp [unlines, banner, toString]

/-- A table whose names are names in C, and of which no text ends a line. -/
structure Tidy (t : Table) (header : String) : Prop extends Plain t header where
  constants : ∀ d ∈ allDefines t, isIdentifier d.1 = true
  values : ∀ d ∈ t.defines, OneLine d.2
  array : isIdentifier t.name = true
  ids : ∀ e ∈ t.entries, isIdentifier e.id = true

/-- What of this the declarations depend on: nothing that is said of the entries, and no header. -/
structure Declarable (t : Table) : Prop extends NamesInLine t where
  constants : ∀ d ∈ allDefines t, isIdentifier d.1 = true
  values : ∀ d ∈ t.defines, OneLine d.2
  ids : ∀ e ∈ t.entries, isIdentifier e.id = true

theorem Tidy.declarable {t : Table} {header : String} (tidy : Tidy t header) : Declarable t :=
  { tidy.toPlain.namesInLine with
    constants := tidy.constants
    values := tidy.values
    ids := tidy.ids }

namespace Declarable

variable {t : Table} (declarable : Declarable t)
include declarable

theorem value {d : String × String} (member : d ∈ allDefines t) : OneLine d.2 := by
  simp only [allDefines, List.mem_append, List.mem_cons] at member
  rcases member with side | rfl | own
  · rw [sideDefines] at side
    split at side
    · obtain rfl := List.mem_singleton.mp side
      exact oneLine_nat _
    · simp only [List.mem_cons, List.not_mem_nil, or_false] at side
      rcases side with rfl | rfl
      · exact oneLine_nat _
      · exact oneLine_nat _
  · exact oneLine_nat _
  · exact declarable.values d own

theorem free (header : String) : ∀ line ∈ declarationLines t header, '\n' ∉ line := by
  have guard : OneLine (includeGuard header) :=
    (spelled_includeGuard header).free (by decide) (by decide)
  intro line member
  simp only [declarationLines, guardLines, defineLines, enumLines, List.mem_append, List.mem_cons,
    List.not_mem_nil, or_false, List.mem_map, List.mem_mapIdx] at member
  rcases member with opening | ⟨d, present, rfl⟩ | ((enum | ⟨i, inside, rfl⟩) | close) | closing
  · rcases opening with rfl | rfl | rfl | rfl | rfl
    · decide
    · decide
    · exact OneLine.append (a := "#ifndef ") (by decide) guard
    · exact OneLine.append (a := "#define ") (by decide) guard
    · decide
  · have name : OneLine d.1 := not_mem_identifier (declarable.constants d present) (by decide) (by decide)
    exact ((OneLine.append (a := "#define ") (by decide) name).append (by decide)).append
      (declarable.value present)
  · rcases enum with rfl | rfl <;> decide
  · have present : t.entries.toList[i] ∈ t.entries := Array.mem_toList_iff.mp (List.getElem_mem inside)
    have id : OneLine t.entries.toList[i].id :=
      not_mem_identifier (declarable.ids _ present) (by decide) (by decide)
    exact (((OneLine.append (a := "    ") (by decide) id).append (by decide)).append
      (oneLine_nat i)).append (by decide)
  · rcases close with rfl | rfl <;> decide
  · rcases closing with rfl | rfl | rfl
    · exact (OneLine.append (a := "extern ") (by decide) declarable.declarator).append (by decide)
    · decide
    · decide

theorem lines (header : String) :
    lines (declarations t header) = declarationLines t header ++ [[]] := by
  rw [Listing.lines, declarations_lines, unlines]
  exact Text.pieces_lines (declarable.free header)

theorem readDefinitions (header : String) :
    readDefinitions (declarations t header) = definitions t header := by
  have guard : (guardLines header).filterMap readDefinition? = [(includeGuard header, "")] := by
    have banner : readDefinition? "// Generated by cellbake. Do not edit.".toList = none := by decide
    have blank : readDefinition? [] = none := by decide
    have condition : readDefinition? ("#ifndef " ++ includeGuard header).toList = none := by
      simp [readDefinition?, List.isPrefixOf?]
    simp only [guardLines, List.filterMap_cons, banner, blank, condition,
      readDefinition?_bare (spelled_includeGuard header), List.filterMap_nil]
  have defines : (defineLines t).filterMap readDefinition? = allDefines t := by
    have each : ∀ d ∈ allDefines t, (readDefinition? ∘ fun d : String × String =>
        ("#define " ++ d.1 ++ " " ++ d.2).toList) d = some d := fun d present =>
      readDefinition?_line (spelled_identifier (declarable.constants d present)) d.2
    rw [defineLines, List.filterMap_map, List.filterMap_congr each, List.filterMap_some]
  have rest : (enumLines t ++ [("extern " ++ declarator t ++ ";").toList, [], "#endif".toList] ++
      [[]]).filterMap readDefinition? = [] := by
    rw [List.filterMap_eq_nil_iff]
    intro line member
    simp only [enumLines, List.mem_append, List.mem_cons, List.not_mem_nil, or_false,
      List.mem_mapIdx] at member
    rcases member with ((((rfl | rfl) | ⟨i, _, rfl⟩) | (rfl | rfl)) | (rfl | rfl | rfl)) | rfl
    -- only the end of the guard starts as a definition does
    case inl.inr.inr.inr => decide
    all_goals exact readDefinition?_of_head (by simp)
  rw [Listing.readDefinitions, declarable.lines, declarationLines, List.append_assoc, List.append_assoc,
    List.filterMap_append, List.filterMap_append, guard, defines, rest, List.append_nil]
  rfl

theorem declared? (header : String) :
    declared? (declarations t header) = some (declarator t).toList := by
  have found : readExtern? ("extern " ++ declarator t ++ ";").toList = some (declarator t).toList := by
    rw [readExtern?, String.append_assoc, String.toList_append, isPrefixOf?_append, Option.bind_some,
      String.toList_append, isSuffixOf?_append]
  have before : ∀ line ∈ guardLines header ++ (defineLines t ++ enumLines t), readExtern? line = none := by
    intro line member
    simp only [guardLines, defineLines, enumLines, List.mem_append, List.mem_cons, List.not_mem_nil,
      or_false, List.mem_map, List.mem_mapIdx] at member
    rcases member with (rfl | rfl | rfl | rfl | rfl) | ⟨_, _, rfl⟩ |
      (((rfl | rfl) | ⟨i, _, rfl⟩) | (rfl | rfl))
    -- only the line that opens the enumeration starts as a declaration does
    case inr.inr.inl.inl.inr => decide
    all_goals exact readExtern?_of_head (by simp)
  have parts : declarationLines t header ++ [[]] = (guardLines header ++ (defineLines t ++ enumLines t)) ++
      ("extern " ++ declarator t ++ ";").toList :: [[], "#endif".toList, []] := by
    simp only [declarationLines, List.append_assoc, List.cons_append, List.nil_append]
  rw [Listing.declared?, declarable.lines, parts, List.findSome?_append,
    List.findSome?_eq_none_iff.mpr before, Option.none_or, List.findSome?_cons, found]

end Declarable

theorem readDefinitions_declarations {t : Table} {header : String} (tidy : Tidy t header) :
    readDefinitions (declarations t header) = definitions t header :=
  tidy.declarable.readDefinitions header

theorem declared?_declarations {t : Table} {header : String} (tidy : Tidy t header) :
    declared? (declarations t header) = some (declarator t).toList :=
  tidy.declarable.declared? header

end PixelTables.Listing
