import PixelTables.Proofs.Listing.Identifiers
import PixelTables.Proofs.Table.Push

namespace PixelTables.Listing

def readIndex? (line : Line) : Option (String × Nat) :=
  ("    ".toList.isPrefixOf? line).bind fun rest => (",".toList.isSuffixOf? rest).bind fun item =>
    match Text.pieces ' ' item with
    | [name, ['='], number] => (readWord? number).map (String.ofList name, ·)
    | _ => none

def readIndices (text : String) : List (String × Nat) := (lines text).filterMap readIndex?

/-- The names that a text introduces behind its include guard, those of macros first. -/
def introduced (text : String) : List String :=
  ((readDefinitions text).drop 1).map Prod.fst ++ (readIndices text).map Prod.fst

theorem readIndex?_of_head {line : Line} (other : line.head? ≠ some ' ') : readIndex? line = none := by
  have start : "    ".toList = ' ' :: "   ".toList := by decide
  rw [readIndex?, start, isPrefixOf?_of_head other]
  rfl

theorem readIndex?_line {id : String} (spelled : Spelled id) (i : Nat) :
    readIndex? ("    " ++ id ++ " = " ++ toString i ++ ",").toList = some (id, i) := by
  have parts : ("    " ++ id ++ " = " ++ toString i ++ ",").toList =
      "    ".toList ++ ((id.toList ++ ' ' :: (['='] ++ ' ' :: (toString i).toList)) ++ ",".toList) := by
    simp
  have name : Text.pieces ' ' id.toList = [id.toList] :=
    Text.pieces_of_free (spelled.free (by decide) (by decide))
  have equals : Text.pieces ' ' ['='] = [['=']] := by decide
  have number : Text.pieces ' ' (toString i).toList = [(toString i).toList] :=
    Text.pieces_of_free (Text.not_mem_toString (by decide) i)
  rw [readIndex?, parts, isPrefixOf?_append, Option.bind_some, isSuffixOf?_append, Option.bind_some,
    Text.pieces_append, Text.pieces_append, name, equals, number]
  simp only [List.cons_append, List.nil_append, readWord?_toString, String.ofList_toList,
    Option.map_some]

namespace Declarable

variable {t : Table} (declarable : Declarable t)
include declarable

theorem readIndices (header : String) : readIndices (declarations t header) = t.ids.zipIdx := by
  have indices : (t.entries.toList.mapIdx fun i e =>
      ("    " ++ e.id ++ " = " ++ toString i ++ ",").toList).filterMap readIndex? = t.ids.zipIdx := by
    have each : ∀ e ∈ t.entries.toList.zipIdx, (readIndex? ∘ fun e : TableEntry × Nat =>
        ("    " ++ e.1.id ++ " = " ++ toString e.2 ++ ",").toList) e = some (e.1.id, e.2) := by
      intro e member
      have present := Array.mem_toList_iff.mp (List.fst_mem_of_mem_zipIdx member)
      exact readIndex?_line (spelled_identifier (declarable.ids e.1 present)) e.2
    rw [List.mapIdx_eq_zipIdx_map, List.filterMap_map, List.filterMap_congr each,
      List.filterMap_eq_map', Table.ids, List.zipIdx_map]
    rfl
  -- no line outside the enumeration starts with a space
  have before : (guardLines header ++ (defineLines t ++ [[], "enum \x7b".toList])).filterMap
      readIndex? = [] := by
    rw [List.filterMap_eq_nil_iff]
    intro line member
    simp only [guardLines, defineLines, List.mem_append, List.mem_cons, List.not_mem_nil, or_false,
      List.mem_map] at member
    rcases member with (rfl | rfl | rfl | rfl | rfl) | ⟨_, _, rfl⟩ | (rfl | rfl)
    all_goals exact readIndex?_of_head (by simp)
  have behind : (["\x7d;".toList, []] ++ (("extern " ++ declarator t ++ ";").toList :: [[],
      "#endif".toList, []])).filterMap readIndex? = [] := by
    rw [List.filterMap_eq_nil_iff]
    intro line member
    simp only [List.mem_append, List.mem_cons, List.not_mem_nil, or_false] at member
    rcases member with (rfl | rfl) | (rfl | rfl | rfl | rfl)
    all_goals exact readIndex?_of_head (by simp)
  have parts : declarationLines t header ++ [[]] =
      (guardLines header ++ (defineLines t ++ [[], "enum \x7b".toList])) ++
        ((t.entries.toList.mapIdx fun i e => ("    " ++ e.id ++ " = " ++ toString i ++ ",").toList) ++
          (["\x7d;".toList, []] ++ (("extern " ++ declarator t ++ ";").toList :: [[],
            "#endif".toList, []]))) := by
    simp only [declarationLines, enumLines, List.append_assoc, List.cons_append, List.nil_append]
  rw [Listing.readIndices, declarable.lines, parts, List.filterMap_append, before,
    List.filterMap_append, indices, behind, List.nil_append, List.append_nil]

theorem introduced (header : String) :
    introduced (declarations t header) = (allDefines t).map Prod.fst ++ t.ids := by
  rw [Listing.introduced, declarable.readDefinitions, declarable.readIndices, List.zipIdx_map_fst]
  rfl

end Declarable

end PixelTables.Listing
