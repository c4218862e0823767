import PixelTables.Text.Pieces

namespace PixelTables

/-- A file path as it is written; nothing is normalised until its components are asked for. -/
structure Path where
  text : String
  deriving DecidableEq, Repr, Inhabited

namespace Path

inductive Anchor where
  | root
  | dot
  | none
  deriving DecidableEq, Repr

inductive Component where
  | root
  | current
  | parent
  | name (text : String)
  deriving DecidableEq, Repr

@[irreducible] def pieces (p : Path) : List String := (Text.pieces '/' p.text.toList).map String.ofList

def anchor (p : Path) : Anchor :=
  match p.pieces with
  | "" :: _ :: _ => .root
  | "." :: _ => .dot
  | _ => .none

def body (p : Path) : List String :=
  match p.anchor with
  | .none => p.pieces
  | _ => p.pieces.tail

def isAbsolute (p : Path) : Bool := p.anchor = .root

def isIdle (piece : String) : Bool := piece = "" || piece = "."

def Anchor.components : Anchor → List Component
  | .root => [.root]
  | .dot => [.current]
  | .none => []

def Component.ofPiece (piece : String) : Component :=
  if piece = ".." then .parent else .name piece

/-- Repeated slashes, a trailing slash and dots after the start leave no component. -/
def components (p : Path) : List Component :=
  p.anchor.components ++ ((p.body.filter fun piece => !isIdle piece).map Component.ofPiece)

def Same (a b : Path) : Prop := a.components = b.components

instance (a b : Path) : Decidable (a.Same b) := inferInstanceAs (Decidable (_ = _))

theorem Same.refl (a : Path) : a.Same a := rfl

theorem Same.symm {a b : Path} (h : a.Same b) : b.Same a := Eq.symm h

theorem Same.trans {a b c : Path} (h : a.Same b) (k : b.Same c) : a.Same c := Eq.trans h k

def dropIdleEnd (body : List String) : List String :=
  (body.reverse.dropWhile isIdle).reverse

def Anchor.render : Anchor → List String → String
  | .root, rest => "/" ++ "/".intercalate rest
  | .dot, [] => "."
  | .dot, rest => "./" ++ "/".intercalate rest
  | .none, rest => "/".intercalate rest

def parent (p : Path) : Option Path :=
  match dropIdleEnd p.body with
  | [] => if p.anchor = .dot then some ⟨""⟩ else none
  | core => some ⟨p.anchor.render (dropIdleEnd core.dropLast)⟩

def fileName (p : Path) : Option String :=
  match p.components.getLast? with
  | some (.name text) => some text
  | _ => none

def extensionOf (name : List Char) : Option (List Char) :=
  let after := (name.reverse.takeWhile (· ≠ '.')).reverse
  if after.length + 1 < name.length then some after else none

def extension (p : Path) : Option String :=
  p.fileName.bind fun name => (extensionOf name.toList).map String.ofList

def join (base p : Path) : Path :=
  if p.isAbsolute then p
  else if base.text = "" || base.text.toList.getLast? = some '/' then ⟨base.text ++ p.text⟩
  else ⟨base.text ++ "/" ++ p.text⟩

def withFileName (p : Path) (name : String) : Path :=
  if p.fileName.isSome then (p.parent.getD ⟨""⟩).join ⟨name⟩ else p.join ⟨name⟩

def ancestors (p : Path) : List Path := climb p.text.length p
where
  climb : Nat → Path → List Path
    | 0, p => [p]
    | steps + 1, p => match p.parent with
      | none => [p]
      | some up => p :: climb steps up

end Path

end PixelTables
