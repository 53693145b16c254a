import EntityScaffold.Text.Blank
import EntityScaffold.Text.Case
import EntityScaffold.Schema.Field
import EntityScaffold.Schema.Scalar

/- One logical line of a block's body: a field, a comment, a block attribute, or nothing that can be read. -/

namespace EntityScaffold.Schema

/-- Reads a field declaration: a name, a type with its marks, and attributes. A name among the given ones is optional whatever
its mark says. -/
def Field.ofLine? (optional : List Text) (line : Text) : Option Field :=
  match Text.words line with
  | name :: token :: attributes =>
    if (bareType token).isEmpty then none
    else some {
      name := name
      rawType := bareType token
      isOptional := token.getLast? = some '?' || optional.contains name
      isArray := Text.has token "[]".toList
      isUnique := attributes.contains "@unique".toList }
  | _ => none

/-- What a logical line is. -/
inductive Line where
  | blank
  | comment
  /-- The comment from which on fields are relations and no longer read. -/
  | relationMark
  | attribute (text : Text)
  | field (f : Field)
  | malformed (text : Text)
  deriving DecidableEq, Repr

def Line.ofText (optional : List Text) (t : Text) : Line :=
  if t.isEmpty then .blank
  else if "//".toList.isPrefixOf t then
    if Text.has (Text.lower t) "relation starts".toList then .relationMark else .comment
  else if "@@".toList.isPrefixOf t then .attribute t
  else match Field.ofLine? optional t with
    | some f => .field f
    | none => .malformed t

/-- The parts of a line: a semicolon parts it where an even number of double quotes follows, that is, outside of quotes. -/
def parts : Text → List Text
  | [] => [[]]
  | c :: r =>
    if c = ';' && r.count '"' % 2 = 0 then [] :: parts r
    else match parts r with
      | [] => [[c]]
      | p :: ps => (c :: p) :: ps

/-- The logical lines of one line of a body: a comment line is one, any other is parted at its semicolons. -/
def logicalLines (physical : Text) : List Text :=
  let line := Text.strip physical
  if "//".toList.isPrefixOf line then [line] else (parts line).map Text.strip

/-- The logical lines of a body with the number of the line each stands on; the header's own line counts as the first. -/
def numberedLines (body : Text) : List (Nat × Text) :=
  ((Text.splitAt '\n' body).zipIdx 1).flatMap fun p => (logicalLines p.1).map fun t => (p.2, t)

end EntityScaffold.Schema
