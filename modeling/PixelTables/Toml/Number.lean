import PixelTables.Toml.Text
import PixelTables.Toml.Value

namespace PixelTables.Toml

open Text (isAsciiDigit)

def ungrouped (isPart : Char → Bool) : List Char → Option (List Char)
  | [] => none
  | [c] => if isPart c then some [c] else none
  | c :: '_' :: rest => if isPart c then (ungrouped isPart rest).map (c :: ·) else none
  | c :: rest => if isPart c then (ungrouped isPart rest).map (c :: ·) else none

def numberOf (base : Nat) (digits : List Char) : Nat :=
  digits.foldl (fun n c => n * base + (digitValue? c).getD 0) 0

def decimal? (cs : List Char) : Option (List Char) := do
  let digits ← ungrouped isAsciiDigit cs
  if digits.length = 1 || digits.head? ≠ some '0' then some digits else none

def signed : List Char → Bool × List Char
  | '+' :: rest => (false, rest)
  | '-' :: rest => (true, rest)
  | cs => (false, cs)

def inBase? (base : Nat) (cs : List Char) : Option Int := do
  let digits ← ungrouped (fun c => (digitValue? c).any (· < base)) cs
  some (numberOf base digits)

def integer? (cs : List Char) : Option Int :=
  match cs with
  | '0' :: 'x' :: rest => inBase? 16 rest
  | '0' :: 'o' :: rest => inBase? 8 rest
  | '0' :: 'b' :: rest => inBase? 2 rest
  | _ =>
    let (minus, rest) := signed cs
    (decimal? rest).map fun digits =>
      let n : Int := numberOf 10 digits
      if minus then -n else n

/-- The nearest double of `digits` times a power of ten. The digits from the first that is not zero
    on tell how large it is; far out of range it is infinite or zero. -/
def scaled (digits : List Char) (power : Int) : Float :=
  let significant := digits.dropWhile (· = '0')
  let magnitude := power + significant.length
  if significant.isEmpty then 0
  else if 400 < magnitude then 1 / 0
  else if magnitude < -400 then 0
  else .ofScientific (numberOf 10 significant) (power < 0) power.natAbs

def power? (cs : List Char) : Option Int := do
  let (minus, rest) := signed cs
  let digits ← ungrouped isAsciiDigit rest
  let n : Int := numberOf 10 digits
  some (if minus then -n else n)

def isPowerMark (c : Char) : Bool := c = 'e' || c = 'E'

def fractional? (cs : List Char) : Option Float := do
  let inWhole := fun c => isAsciiDigit c || c = '_'
  let whole ← decimal? (cs.takeWhile inWhole)
  match cs.dropWhile inWhole with
  | '.' :: rest =>
    let fraction ← ungrouped isAsciiDigit (rest.takeWhile inWhole)
    let digits := whole ++ fraction
    match rest.dropWhile inWhole with
    | [] => some (scaled digits (-fraction.length))
    | mark :: rest =>
      if isPowerMark mark then
        let power ← power? rest
        some (scaled digits (power - fraction.length))
      else none
  | mark :: rest =>
    if isPowerMark mark then (power? rest).map (scaled whole) else none
  | [] => none

/-- A floating-point number. Infinity is one where it is called so, and is out of range where digits
    lead to it. -/
def float? (cs : List Char) : Option Value :=
  let (minus, rest) := signed cs
  let float (size : Float) : Value := .float (if minus then -size else size)
  if rest = "inf".toList then some (float (1 / 0))
  else if rest = "nan".toList then some (float (0 / 0))
  else (fractional? rest).map fun size => if size.isFinite then float size else .outOfRange

def fixedDigits? (count : Nat) (cs : List Char) : Option (Nat × List Char) :=
  let digits := cs.take count
  if digits.length = count ∧ digits.all isAsciiDigit then
    some (numberOf 10 digits, cs.drop count)
  else none

def isLeapYear (year : Nat) : Bool := year % 4 = 0 && (year % 100 ≠ 0 || year % 400 = 0)

def daysIn (year month : Nat) : Nat :=
  if month = 2 then (if isLeapYear year then 29 else 28)
  else if month ∈ [4, 6, 9, 11] then 30
  else 31

def date? (cs : List Char) : Option (List Char) := do
  let (year, rest) ← fixedDigits? 4 cs
  match rest with
  | '-' :: rest =>
    let (month, rest) ← fixedDigits? 2 rest
    match rest with
    | '-' :: rest =>
      let (day, rest) ← fixedDigits? 2 rest
      if 1 ≤ month ∧ month ≤ 12 ∧ 1 ≤ day ∧ day ≤ daysIn year month then some rest else none
    | _ => none
  | _ => none

def fraction? (cs : List Char) : Option (List Char) :=
  match cs with
  | '.' :: rest => if (rest.takeWhile isAsciiDigit).isEmpty then none else some (rest.dropWhile isAsciiDigit)
  | _ => some cs

def time? (cs : List Char) : Option (List Char) := do
  let (hour, rest) ← fixedDigits? 2 cs
  match rest with
  | ':' :: rest =>
    let (minute, rest) ← fixedDigits? 2 rest
    if 23 < hour ∨ 59 < minute then none
    else match rest with
      | ':' :: rest =>
        let (second, rest) ← fixedDigits? 2 rest
        if 60 < second then none else fraction? rest
      | _ => some rest
  | _ => none

def isOffset (cs : List Char) : Bool :=
  match cs with
  | [] => true
  | ['Z'] | ['z'] => true
  | '+' :: rest | '-' :: rest =>
    match fixedDigits? 2 rest with
    | some (hours, ':' :: rest) => match fixedDigits? 2 rest with
      | some (minutes, []) => hours ≤ 23 && minutes ≤ 59
      | _ => false
    | _ => false
  | _ => false

def isMoment (cs : List Char) : Bool :=
  match date? cs with
  | some [] => true
  | some (mark :: rest) => (mark = 'T' || mark = 't' || mark = ' ') && (time? rest).any isOffset
  | none => time? cs = some []

end PixelTables.Toml
