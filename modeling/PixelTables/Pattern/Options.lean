import PixelTables.Text.Pieces

namespace PixelTables.Pattern

structure Options where
  ignoresCase : Bool := false
  linewise : Bool := false
  dotIsAll : Bool := false
  lazy : Bool := false
  unicode : Bool := true
  anyLines : Bool := false
  spaced : Bool := false
  deriving DecidableEq, Repr

namespace Options

def set? (o : Options) (letter : Char) (value : Bool) : Option Options :=
  match letter with
  | 'i' => some { o with ignoresCase := value }
  | 'm' => some { o with linewise := value }
  | 's' => some { o with dotIsAll := value }
  | 'U' => some { o with lazy := value }
  | 'u' => some { o with unicode := value }
  | 'R' => some { o with anyLines := value }
  | 'x' => some { o with spaced := value }
  | _ => none

/-- Sets what letters stand for; behind a minus sign they switch off. Nothing is written twice, and
    the minus sign is not the last. -/
def setAll? (value : Bool) (seen : List Char) : List Char → Options → Option Options
  | [], o => if seen.head? = some '-' then none else some o
  | c :: rest, o =>
    if c ∈ seen then none
    else if c = '-' then setAll? false (c :: seen) rest o
    else (o.set? c value).bind (setAll? value (c :: seen) rest)

end Options

def dropSpace (inComment : Bool) : List Char → List Char
  | [] => []
  | c :: rest =>
    if inComment then dropSpace (c ≠ '\n') rest
    else if Text.isBlank c then dropSpace false rest
    else if c = '#' then dropSpace true rest
    else c :: rest

def Options.skip (o : Options) (cs : List Char) : List Char :=
  if o.spaced then dropSpace false cs else cs

end PixelTables.Pattern
