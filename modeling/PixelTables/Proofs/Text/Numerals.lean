import PixelTables.Text.Quoted
import Mathlib.Algebra.Group.Nat.Defs

namespace PixelTables.Text

def digitValue? (c : Char) : Option Nat :=
  if '0' ≤ c ∧ c ≤ '9' then some (c.toNat - 0x30)
  else if 'A' ≤ c ∧ c ≤ 'F' then some (c.toNat - 0x37)
  else none

def addDigit (base n : Nat) (c : Char) : Option Nat := do
  let digit ← digitValue? c
  if digit < base then some (n * base + digit) else none

def numeral? (base : Nat) (cs : List Char) : Option Nat := cs.foldlM (addDigit base) 0

theorem numeral?_concat (base : Nat) (cs : List Char) (c : Char) :
    numeral? base (cs ++ [c]) = (numeral? base cs).bind (addDigit base · c) := by
  simp only [numeral?, List.foldlM_append, List.foldlM_cons, List.foldlM_nil, bind_pure]
  rfl

theorem digitValue?_hexDigit {d : Nat} (small : d < 16) : digitValue? (hexDigit true d) = some d := by
  revert d
  decide

theorem digitValue?_digitChar {d : Nat} (small : d < 10) : digitValue? d.digitChar = some d := by
  revert d
  decide

theorem addDigit_eq {base n d : Nat} {c : Char} (value : digitValue? c = some d) (small : d < base) :
    addDigit base n c = some (n * base + d) := by
  simp [addDigit, value, small]

theorem numeral?_hexDigits (width n : Nat) :
    numeral? 16 (hexDigits true width n) = some (n % 16 ^ width) := by
  induction width generalizing n with
  | zero => simp [hexDigits, numeral?, Nat.mod_one]
  | succ width ih =>
    have small : n % 16 < 16 := Nat.mod_lt _ (by decide)
    have parts : n % 16 ^ (width + 1) = n / 16 % 16 ^ width * 16 + n % 16 := by
      rw [Nat.pow_succ', Nat.mod_mul]
      omega
    rw [hexDigits, numeral?_concat, ih, Option.bind_some,
      addDigit_eq (digitValue?_hexDigit small) small, parts]

theorem lt_pow_hexLength (n : Nat) : n < 16 ^ hexLength n := by
  have enough : n.log2 + 1 ≤ 4 * hexLength n := by
    unfold hexLength
    omega
  calc n < 2 ^ (n.log2 + 1) := Nat.lt_log2_self
    _ ≤ 2 ^ (4 * hexLength n) := Nat.pow_le_pow_right (by decide) enough
    _ = 16 ^ hexLength n := by rw [Nat.pow_mul]

theorem numeral?_hexUpper (width n : Nat) : numeral? 16 (hexUpper width n).toList = some n := by
  have bound : n < 16 ^ max width (hexLength n) :=
    Nat.lt_of_lt_of_le (lt_pow_hexLength n)
      (Nat.pow_le_pow_right (by decide) (Nat.le_max_right _ _))
  rw [hexUpper, String.toList_ofList, numeral?_hexDigits, Nat.mod_eq_of_lt bound]

theorem hexUpper_inj {width m n : Nat} (same : hexUpper width m = hexUpper width n) : m = n := by
  have first := numeral?_hexUpper width m
  rw [same, numeral?_hexUpper] at first
  exact (Option.some.inj first).symm

theorem numeral?_toDigits (n : Nat) : numeral? 10 (Nat.toDigits 10 n) = some n := by
  induction n using Nat.strongRecOn with
  | ind n ih =>
    rw [Nat.toDigits_eq_if (by decide)]
    split
    · rename_i small
      rw [← List.nil_append [_], numeral?_concat]
      simp [numeral?, addDigit_eq (digitValue?_digitChar small) small]
    · rename_i large
      have small : n % 10 < 10 := Nat.mod_lt _ (by decide)
      rw [numeral?_concat, ih (n / 10) (by omega), Option.bind_some,
        addDigit_eq (digitValue?_digitChar small) small, Nat.div_add_mod']

theorem isDigit_of_mem_toString {c : Char} {n : Nat} (member : c ∈ (toString n).toList) :
    c.isDigit = true := by
  rw [Nat.toString_eq_repr, Nat.toList_repr] at member
  exact Nat.isDigit_of_mem_toDigits (by decide) (by decide) member

theorem not_mem_toString {c : Char} (other : c.isDigit = false) (n : Nat) :
    c ∉ (toString n).toList := by
  intro member
  rw [isDigit_of_mem_toString member] at other
  cases other

theorem numeral?_toString (n : Nat) : numeral? 10 (toString n).toList = some n := by
  rw [Nat.toString_eq_repr, Nat.toList_repr, numeral?_toDigits]

end PixelTables.Text
