import EntityScaffold.Entries
import EntityScaffold.Text.Basic

/-
Templates: texts with slots, each a dollar sign and a name in braces. Filling a template is one pass from the left: what
a slot is filled with is not looked at again, and a slot without a value stays as it is.
-/

namespace EntityScaffold.Template

abbrev Context := List (Text × Text)

/-- A piece of a template: a character, or a slot by its name. -/
inductive Piece where
  | plain (c : Char)
  | slot (name : Text)
  deriving DecidableEq, Repr

def isNameStart (c : Char) : Bool := c.isAlpha || c = '_'

def isNamePart (c : Char) : Bool := c.isAlphanum || c = '_'

def slotName? : Text → Option Text
  | '$' :: '\x7b' :: c :: r =>
    if isNameStart c then
      match r.dropWhile isNamePart with
      | '\x7d' :: _ => some (c :: r.takeWhile isNamePart)
      | _ => none
    else none
  | _ => none

def written (name : Text) : Text := '$' :: '\x7b' :: name ++ ['\x7d']

/-- The pieces of a text whose first characters, so many of them, belong to the slot before. -/
def piecesAfter : Nat → Text → List Piece
  | _, [] => []
  | owed + 1, _ :: r => piecesAfter owed r
  | 0, c :: r =>
    match slotName? (c :: r) with
    | some name => .slot name :: piecesAfter (name.length + 2) r
    | none => .plain c :: piecesAfter 0 r

def pieces (template : Text) : List Piece := piecesAfter 0 template

/-- A piece with its slot filled, if there is a value for it. -/
def Piece.fill (context : Context) : Piece → Text
  | .plain c => [c]
  | .slot name => (Entries.get? name context).getD (written name)

/-- The template with every slot filled for which the context has a value. -/
def substitute (template : Text) (context : Context) : Text :=
  (pieces template).flatMap (Piece.fill context)

def slots (t : Text) : List Text :=
  (pieces t).filterMap fun
    | .plain _ => none
    | .slot name => some name

end EntityScaffold.Template
