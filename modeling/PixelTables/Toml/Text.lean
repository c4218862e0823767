import PixelTables.Text.Ascii

namespace PixelTables.Toml

def isBlank (c : Char) : Bool := c = ' ' || c = '\t'

def isPlain (c : Char) : Bool := c = '\t' || (0x20 ≤ c.toNat && c.toNat ≠ 0x7F)

def digitValue? (c : Char) : Option Nat :=
  let n := c.toNat
  if 0x30 ≤ n ∧ n ≤ 0x39 then some (n - 0x30)
  else if 0x41 ≤ n ∧ n ≤ 0x46 then some (n - 0x37)
  else if 0x61 ≤ n ∧ n ≤ 0x66 then some (n - 0x57)
  else none

def shortEscape? : Char → Option Char
  | 'b' => some '\x08'
  | 't' => some '\t'
  | 'n' => some '\n'
  | 'f' => some '\x0c'
  | 'r' => some '\r'
  | 'e' => some '\x1b'
  | '"' => some '"'
  | '\\' => some '\\'
  | _ => none

def codeLength? : Char → Option Nat
  | 'x' => some 2
  | 'u' => some 4
  | 'U' => some 8
  | _ => none

structure Style where
  quote : Char
  escapes : Bool
  lines : Bool

def Style.basic (lines : Bool) : Style := ⟨'"', true, lines⟩

def Style.literal (lines : Bool) : Style := ⟨'\'', false, lines⟩

/-- What has just been read inside a string: nothing in particular, some quotes, a carriage return
    (which may be part of the string), a backslash, a part of a code point escape, or white space
    after a backslash, which has to include the end of the line. -/
inductive Mode where
  | plain
  | quotes (count : Nat)
  | carriage (kept : Bool)
  | escape
  | code (left value : Nat)
  | gap (ended : Bool)

def Style.closing (s : Style) : Nat := if s.lines then 3 else 1

def Style.plain (s : Style) (c : Char) : Option (List Char × Mode) :=
  if c = '\\' && s.escapes then some ([], .escape)
  else if c = s.quote then some ([], .quotes 1)
  else if isPlain c then some ([c], .plain)
  else if s.lines && c = '\n' then some ([c], .plain)
  else if s.lines && c = '\r' then some ([c], .carriage true)
  else none

def Style.escape (s : Style) (c : Char) : Option (List Char × Mode) :=
  match codeLength? c with
  | some count => some ([], .code count 0)
  | none => match shortEscape? c with
    | some meant => some ([meant], .plain)
    | none =>
      if s.lines && isBlank c then some ([], .gap false)
      else if s.lines && c = '\r' then some ([], .carriage false)
      else if s.lines && c = '\n' then some ([], .gap true)
      else none

def codeDigit (left value : Nat) (c : Char) : Option (List Char × Mode) := do
  let digit ← digitValue? c
  let value := value * 16 + digit
  if left ≤ 1 then
    let meant ← Text.charOfCode? value
    some ([meant], .plain)
  else some ([], .code (left - 1) value)

def Style.step (s : Style) (mode : Mode) (c : Char) : Option (List Char × Mode) :=
  match mode with
  | .plain => s.plain c
  | .quotes count =>
    if c = s.quote then some ([], .quotes (count + 1))
    else (s.plain c).map fun (added, mode) => (List.replicate count s.quote ++ added, mode)
  | .carriage kept =>
    if c = '\n' then some (if kept then ([c], .plain) else ([], .gap true)) else none
  | .escape => s.escape c
  | .code left value => codeDigit left value c
  | .gap ended =>
    if c = '\n' then some ([], .gap true)
    else if isBlank c then some ([], .gap ended)
    else if c = '\r' then some ([], .carriage false)
    else if ended then s.plain c
    else none

/-- The quotes that belong to a string that ends after a run of quotes, if it does end there. Up to
    two quotes may stand before the closing ones where there are three of these. -/
def Style.ending? (s : Style) (count : Nat) : Option (List Char) :=
  if s.closing ≤ count then some (List.replicate (count - s.closing) s.quote) else none

def Style.isFull (s : Style) (count : Nat) : Bool := if s.lines then count = 5 else count = 1

def Style.read (s : Style) : Mode → List Char → Option (List Char × List Char)
  | mode, [] => match mode with
    | .quotes count => (s.ending? count).map (·, [])
    | _ => none
  | mode, c :: rest =>
    let finished := match mode with
      | .quotes count => if c ≠ s.quote || s.isFull count then s.ending? count else none
      | _ => none
    match finished with
    | some tail => some (tail, c :: rest)
    | none => do
      let (added, mode) ← s.step mode c
      let (more, rest) ← s.read mode rest
      some (added ++ more, rest)

def dropFirstBreak : List Char → List Char
  | '\n' :: rest => rest
  | '\r' :: '\n' :: rest => rest
  | cs => cs

def stringAt (oneLine : Bool) : List Char → Option (List Char × List Char)
  | '"' :: '"' :: '"' :: rest =>
    if oneLine then none else (Style.basic true).read .plain (dropFirstBreak rest)
  | '\'' :: '\'' :: '\'' :: rest =>
    if oneLine then none else (Style.literal true).read .plain (dropFirstBreak rest)
  | '"' :: rest => (Style.basic false).read .plain rest
  | '\'' :: rest => (Style.literal false).read .plain rest
  | _ => none

end PixelTables.Toml
