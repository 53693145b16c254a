import EntityScaffold.Text.Quoted
import EntityScaffold.Schema.Block
import EntityScaffold.Schema.FieldLine

/- The model of an entity, read from the body of its block, and what is reported while reading it. -/

namespace EntityScaffold.Schema

/-- A body's logical lines as they were read, each with its number. -/
def readLines (optional : List Text) (body : Text) : List (Nat × Line) :=
  (numberedLines body).map fun p => (p.1, Line.ofText optional p.2)

def ownLines (lines : List (Nat × Line)) : List (Nat × Line) :=
  lines.takeWhile fun p => p.2 ≠ .relationMark

def Line.field? : Line → Option Field
  | .field f => some f
  | _ => none

def malformedWarning (entity : Text) (number : Nat) (line : Text) : Text :=
  "Skipped malformed line ".toList ++ Text.ofNat number ++ " in model ".toList ++ entity ++ ": ".toList ++
    Text.quoted line

def Line.warning? (entity : Text) : Nat × Line → Option Text
  | (number, .malformed t) => some (malformedWarning entity number t)
  | _ => none

def modelOfBody (entity : Text) (optional : List Text) (body : Text) : Model :=
  let lines := ownLines (readLines optional body)
  { entity := entity
    fields := lines.filterMap fun p => p.2.field?
    warnings := lines.filterMap (Line.warning? entity) }

def source : Text := "crudgen.schema".toList

def Line.note? (entity : Text) : Nat × Line → Option Log.Entry
  | (_, .attribute t) =>
    some (Log.debug source ("Skipping block attribute in model ".toList ++ entity ++ ": ".toList ++ t))
  | (number, .malformed t) => some (Log.warning source (malformedWarning entity number t))
  | (number, .relationMark) =>
    some (Log.debug source ("Relation marker in model ".toList ++ entity ++ " at line ".toList ++
      Text.ofNat number ++ "; ignoring the rest.".toList))
  | _ => none

def notesOfBody (entity : Text) (optional : List Text) (body : Text) : List Log.Entry :=
  let lines := readLines optional body
  let own := ownLines lines
  let model := modelOfBody entity optional body
  (own ++ (lines.drop own.length).take 1).filterMap (Line.note? entity) ++
    [Log.info source ("Extracted ".toList ++ Text.ofNat model.fields.length ++ " field(s) from model ".toList ++
      entity ++ " (".toList ++ Text.ofNat model.warnings.length ++ " skipped line(s)).".toList)]

/-- The model of an entity, if the schema holds a block for it. -/
def model? (schema entity : Text) (optional : List Text) : Option Model :=
  (block? schema entity).map (modelOfBody entity optional)

end EntityScaffold.Schema
