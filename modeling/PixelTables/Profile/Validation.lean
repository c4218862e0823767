import PixelTables.Profile.Basic

namespace PixelTables

def isIdentifier (name : String) : Bool :=
  match name.toList with
  | [] => false
  | first :: rest =>
    (Text.isAsciiLetter first || first = '_')
      && rest.all fun c => Text.isAsciiAlphanumeric c || c = '_'

def checkIdentifier (what name : String) : Except Failure Unit :=
  if isIdentifier name then .ok () else .error (.fault (.notIdentifier what name))

def reservedNames : List String := ["WIDTH", "HEIGHT", "FIRST", "TRANSPARENT"]

def require (good : Bool) (fault : Fault) : Except Failure Unit :=
  if good then .ok () else .error (.fault fault)

namespace Shape

def clash? (s : Shape) : Option String :=
  if s.countName = s.sizeName then some s.countName
  else [s.countName, s.sizeName].find? (· ∈ reservedNames)

def constants (s : Shape) (stem : String) : List String :=
  (reservedNames ++ [s.countName, s.sizeName]).map (stem ++ "_" ++ ·)

/-- The names of a shape are identifiers, distinct from each other, from the reserved names and,
    with the stem, from every index. -/
def check (s : Shape) (table stem : String) (indices : List String) : Except Failure Unit := do
  checkIdentifier "count constant" s.countName
  checkIdentifier "size constant" s.sizeName
  match s.clash? with
  | some name => .error (.fault (.constantTwice table (stem ++ "_" ++ name)))
  | none => match indices.find? (· ∈ s.constants stem) with
    | some index => .error (.fault (.indexClash table index))
    | none => .ok ()

end Shape

def isUsableSize (size : Float32) : Bool := size.isFinite && size > 0

namespace GlyphProfile

def check (p : GlyphProfile) : Except Failure Unit := do
  require (p.cellWidth ≠ 0 && p.cellHeight ≠ 0) (.emptyCell p.name)
  require (p.cellWidth ≤ maxCellSide && p.cellHeight ≤ maxCellSide)
    (.largeCell p.name maxCellSide.toNat)
  require (p.padding ≤ maxPadding) (.largePadding p.name maxPadding.toNat)
  require (p.count ≠ 0) (.noCharacters p.name)
  require (p.chars.length = p.count.toNat) (.leavesCharacters p.name p.firstChar p.count)
  require (isUsableSize p.fontSize) (.fontSize p.name)
  p.shape.check p.name p.stem (p.descriptors.map (·.id))

end GlyphProfile

namespace IconProfile

def checkEntries (p : IconProfile) : List String → List IconEntry → Except Failure Unit
  | _, [] => .ok ()
  | before, e :: rest => do
    checkIdentifier "icon id" e.id
    require (e.id ∉ before) (.iconTwice p.name e.id)
    let size := p.contentSizeOf e
    require (size ≠ 0 && size ≤ p.cellSize) (.contentSize p.name e.id size p.cellSize)
    p.checkEntries (e.id :: before) rest

def check (p : IconProfile) : Except Failure Unit := do
  require (p.cellSize ≠ 0 && p.cellSize ≤ maxCellSide) (.cellSize p.name maxCellSide.toNat)
  require (!p.entries.isEmpty) (.noIcons p.name)
  p.checkEntries [] p.entries
  p.shape.check p.name p.stem (p.entries.map p.index)

end IconProfile

namespace Config

def checkNames : List String → List (String × String) → Except Failure Unit
  | _, [] => .ok ()
  | before, (name, stem) :: rest => do
    require (name ∉ before) (.tableTwice name)
    checkIdentifier "table name" name
    checkIdentifier "prefix" stem
    checkNames (name :: before) rest

def checkOutputs : List Path → List Path → Except Failure Unit
  | _, [] => .ok ()
  | before, p :: rest => do
    require (before.all fun q => ¬ q.Same p) (.outputTwice p)
    checkOutputs (p :: before) rest

def check (c : Config) : Except Failure Unit := do
  checkNames [] c.names
  checkOutputs [] c.outputs
  c.glyphs.forM (·.check)
  c.icons.forM (·.check)

end Config

end PixelTables
