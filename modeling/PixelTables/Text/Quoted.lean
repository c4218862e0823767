import PixelTables.Text.Printable

namespace PixelTables.Text

def hexDigit (upper : Bool) (d : Nat) : Char :=
  if d < 10 then Char.ofNat (0x30 + d)
  else Char.ofNat ((if upper then 0x41 else 0x61) + (d - 10))

def hexDigits (upper : Bool) : Nat → Nat → List Char
  | 0, _ => []
  | width + 1, n => hexDigits upper width (n / 16) ++ [hexDigit upper (n % 16)]

def hexLength (n : Nat) : Nat := Nat.log2 n / 4 + 1

def hexUpper (width n : Nat) : String :=
  String.ofList (hexDigits true (max width (hexLength n)) n)

def hexLower (n : Nat) : String := String.ofList (hexDigits false (hexLength n) n)

structure QuoteStyle where
  single : Bool
  double : Bool

def QuoteStyle.character : QuoteStyle := ⟨true, false⟩

def QuoteStyle.text : QuoteStyle := ⟨false, true⟩

def QuoteStyle.path : QuoteStyle := ⟨true, true⟩

def codeEscape (c : Char) : String := "\\u\x7b" ++ hexLower c.toNat ++ "\x7d"

/-- A character as it stands inside a literal: the short escapes, then a code point escape for
    what combines with its neighbour or cannot be seen, and itself otherwise. -/
def escaped (style : QuoteStyle) (c : Char) : String :=
  if c = '\x00' then "\\0"
  else if c = '\t' then "\\t"
  else if c = '\r' then "\\r"
  else if c = '\n' then "\\n"
  else if c = '\\' then "\\\\"
  else if c = '\'' && style.single then "\\'"
  else if c = '"' && style.double then "\\\""
  else if isExtending c || !isPrintable c then codeEscape c
  else c.toString

def quotedChar (c : Char) : String := "'" ++ escaped .character c ++ "'"

def quotedWith (style : QuoteStyle) (s : String) : String :=
  "\"" ++ String.join (s.toList.map (escaped style)) ++ "\""

def quotedText (s : String) : String := quotedWith .text s

def quotedPath (s : String) : String := quotedWith .path s

end PixelTables.Text
