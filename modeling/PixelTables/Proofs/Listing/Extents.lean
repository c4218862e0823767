import PixelTables.Proofs.Listing.Words
import Mathlib.Data.List.Forall2
import Mathlib.Data.List.Nodup

namespace PixelTables.Listing

inductive Extent where
  | constant (name : String)
  | less (name : String) (offset : Nat)
  | product (left right : String)
  deriving DecidableEq, Repr

abbrev Macros := List (String × String)

def Macros.names (macros : Macros) : List String := macros.map Prod.fst

def Macros.value? (macros : Macros) (name : String) : Option Int :=
  (macros.lookup name).bind fun text => (readWord? text.toList).map Int.ofNat

namespace Extent

def text : Extent → String
  | .constant name => name
  | .less name offset => name ++ " - " ++ toString offset
  | .product left right => left ++ " * " ++ right

def names : Extent → List String
  | .constant name | .less name _ => [name]
  | .product left right => [left, right]

def value? (macros : Macros) : Extent → Option Int
  | .constant name => macros.value? name
  | .less name offset => (macros.value? name).map (· - (offset : Int))
  | .product left right =>
    (macros.value? left).bind fun a => (macros.value? right).map fun b => a * b

/-- Everything that a dimension mentions is defined once, and its value is `n`. -/
structure Measures (macros : Macros) (x : Extent) (n : Int) : Prop where
  once : ∀ name ∈ x.names, macros.names.count name = 1
  value : x.value? macros = some n

end Extent

theorem mentioned_once {macros : Macros} {xs : List Extent} {sizes : List Int}
    (measured : List.Forall₂ (Extent.Measures macros) xs sizes) :
    ∀ x ∈ xs, ∀ name ∈ x.names, macros.names.count name = 1 := by
  induction measured with
  | nil => simp
  | cons first _ ih => exact List.forall_mem_cons.mpr ⟨first.once, ih⟩

section Measuring

variable {macros : Macros} (distinct : macros.names.Nodup)
include distinct

theorem Macros.lookup_of_mem {name text : String} (defined : (name, text) ∈ macros) :
    macros.lookup name = some text := by
  induction macros with
  | nil => cases defined
  | cons first rest ih =>
    obtain ⟨fresh, distinct⟩ := List.nodup_cons.mp distinct
    rcases List.mem_cons.mp defined with rfl | defined
    · simp
    · have other : (name == first.1) = false := by
        rw [beq_eq_false_iff_ne]
        rintro rfl
        exact fresh (List.mem_map.mpr ⟨_, defined, rfl⟩)
      rw [List.lookup_cons, other]
      exact ih distinct defined

theorem Macros.value?_of_mem {name : String} {n : Nat} (defined : (name, toString n) ∈ macros) :
    macros.value? name = some (n : Int) := by
  rw [Macros.value?, Macros.lookup_of_mem distinct defined, Option.bind_some, readWord?_toString]
  rfl

theorem Macros.count_of_mem {name text : String} (defined : (name, text) ∈ macros) :
    macros.names.count name = 1 :=
  List.count_eq_one_of_mem distinct (List.mem_map.mpr ⟨_, defined, rfl⟩)

theorem measures_constant {name : String} {n : Nat} (defined : (name, toString n) ∈ macros) :
    (Extent.constant name).Measures macros n := by
  constructor
  · intro other member
    obtain rfl := List.mem_singleton.mp member
    exact Macros.count_of_mem distinct defined
  · exact Macros.value?_of_mem distinct defined

theorem measures_less {name : String} {n : Nat} (offset : Nat)
    (defined : (name, toString (n + offset)) ∈ macros) :
    (Extent.less name offset).Measures macros n := by
  constructor
  · intro other member
    obtain rfl := List.mem_singleton.mp member
    exact Macros.count_of_mem distinct defined
  · -- what the count exceeds the table by is taken away again
    have whole : ((n + offset : Nat) : Int) - offset = n := by omega
    rw [Extent.value?, Macros.value?_of_mem distinct defined, Option.map_some, whole]

theorem measures_product {left right : String} {m n : Nat} (first : (left, toString m) ∈ macros)
    (second : (right, toString n) ∈ macros) :
    (Extent.product left right).Measures macros (m * n) := by
  constructor
  · intro other member
    simp only [Extent.names, List.mem_cons, List.not_mem_nil, or_false] at member
    rcases member with rfl | rfl
    · exact Macros.count_of_mem distinct first
    · exact Macros.count_of_mem distinct second
  · rw [Extent.value?, Macros.value?_of_mem distinct first, Macros.value?_of_mem distinct second]
    rfl

end Measuring

def countExtent (t : Table) : Extent :=
  if t.shape.countOffset = 0 then .constant (t.constant t.shape.countName)
  else .less (t.constant t.shape.countName) t.shape.countOffset.toNat

def cellExtents (t : Table) : List Extent :=
  match t.shape.layout with
  | .grid => [.constant (t.constant "HEIGHT"), .constant (t.constant "WIDTH")]
  | .flat =>
    if usesSize t then [.product (t.constant t.shape.sizeName) (t.constant t.shape.sizeName)]
    else [.product (t.constant "HEIGHT") (t.constant "WIDTH")]

def extents (t : Table) : List Extent := countExtent t :: cellExtents t

def dimensions (t : Table) : List Int :=
  t.size :: match t.shape.layout with
    | .grid => [(t.cellHeight : Int), (t.cellWidth : Int)]
    | .flat => [(t.cellHeight : Int) * t.cellWidth]

theorem declarator_extents (t : Table) : declarator t =
    elementType t.format ++ " " ++ t.name ++
      String.join ((extents t).map fun x => "[" ++ x.text ++ "]") := by
  have count : countDimension t = (countExtent t).text := by
    rw [countDimension, countExtent]
    split
    · rfl
    · rfl
  have cell : cellDimensions t = String.join ((cellExtents t).map fun x => "[" ++ x.text ++ "]") := by
    rw [cellDimensions, cellExtents, ← String.toList_inj]
    cases t.shape.layout with
    | grid => simp [Extent.text, toString]
    | flat => by_cases square : usesSize t = true <;> simp [square, Extent.text, toString]
  rw [declarator, count, cell, extents]
  simp [toString, String.append_assoc]

/-- Everything that the declarations define, the include guard first. -/
def definitions (t : Table) (header : String) : Macros := (includeGuard header, "") :: allDefines t

theorem countExtent_measures {t : Table} {macros : Macros} (distinct : macros.names.Nodup)
    (defined : countDefine t ∈ macros) : (countExtent t).Measures macros t.size := by
  rw [countDefine] at defined
  rw [countExtent]
  by_cases none : t.shape.countOffset = 0
  · rw [none] at defined
    rw [if_pos none]
    exact measures_constant distinct defined
  · rw [if_neg none]
    exact measures_less distinct _ defined

theorem cellExtents_measure {t : Table} {macros : Macros} (distinct : macros.names.Nodup)
    (defined : ∀ d ∈ sideDefines t, d ∈ macros) :
    List.Forall₂ (Extent.Measures macros) (cellExtents t) (dimensions t).tail := by
  rw [sideDefines] at defined
  rw [cellExtents, dimensions, List.tail_cons]
  -- the names that are defined and the names that are mentioned hang on this one condition
  by_cases square : usesSize t = true
  · have side := defined (t.constant t.shape.sizeName, toString t.cellWidth) (by simp [square])
    have product := measures_product distinct side side
    have flat : t.shape.layout = .flat ∧ t.cellWidth = t.cellHeight := by
      simpa [usesSize] using square
    rw [flat.2] at product
    simp only [square, flat.1, flat.2, ↓reduceIte]
    exact .cons product .nil
  · have width := defined (t.constant "WIDTH", toString t.cellWidth) (by simp [square])
    have height := defined (t.constant "HEIGHT", toString t.cellHeight) (by simp [square])
    cases t.shape.layout with
    | grid => exact .cons (measures_constant distinct height) (.cons (measures_constant distinct width) .nil)
    | flat =>
      simp only [square]
      exact .cons (measures_product distinct height width) .nil

theorem extents_measure {t : Table} {macros : Macros} (distinct : macros.names.Nodup)
    (defined : ∀ d ∈ allDefines t, d ∈ macros) :
    List.Forall₂ (Extent.Measures macros) (extents t) (dimensions t) := by
  have sides : ∀ d ∈ sideDefines t, d ∈ macros := fun d member => defined d (by simp [allDefines, member])
  exact .cons (countExtent_measures distinct (defined _ (by simp [allDefines])))
    (cellExtents_measure distinct sides)

end PixelTables.Listing
