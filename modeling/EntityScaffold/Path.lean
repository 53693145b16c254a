import EntityScaffold.Text.Basic

/-
Paths: parts below the working folder or below the root. Empty parts and single dots say nothing and are dropped; two
leading slashes are a root of their own, and three or more are the plain one.
-/

namespace EntityScaffold

inductive Root where
  | here
  | slash
  | doubleSlash
  deriving DecidableEq, Repr

def Root.text : Root → Text
  | .here => []
  | .slash => "/".toList
  | .doubleSlash => "//".toList

/-- A path: its root, and its parts from there on. -/
structure Path where
  root : Root := .here
  parts : List Text := []
  deriving DecidableEq, Repr

namespace Path

def rootOf : Text → Root
  | '/' :: '/' :: '/' :: _ => .slash
  | '/' :: '/' :: _ => .doubleSlash
  | '/' :: _ => .slash
  | _ => .here

def isIdle (part : Text) : Bool := part.isEmpty || part = ['.']

def ofText (t : Text) : Path where
  root := rootOf t
  parts := (Text.splitAt '/' t).filter fun p => !isIdle p

/-- The path of a text below this one; a text with a root of its own stands for itself. -/
def join (p q : Path) : Path :=
  match q.root with
  | .here => { p with parts := p.parts ++ q.parts }
  | _ => q

instance : Div Path := ⟨join⟩

/-- The path as a text; a path without root and parts is a dot. -/
def text (p : Path) : Text :=
  match p.root, p.parts with
  | .here, [] => ['.']
  | root, parts => root.text ++ Text.joinWith ['/'] parts

def parent (p : Path) : Path := { p with parts := p.parts.dropLast }

/-- The last part; a path without parts has an empty one. -/
def name (p : Path) : Text := p.parts.getLast?.getD []

def isAbsolute (p : Path) : Bool := p.root ≠ .here

def here : Path := {}

end Path

end EntityScaffold
