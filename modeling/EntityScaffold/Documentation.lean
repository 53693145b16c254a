import EntityScaffold.Entries
import EntityScaffold.Json
import EntityScaffold.Schema.Field
import EntityScaffold.Schema.Scalar

/- The API documentation of an entity: its properties with their types, and which of them a request must hold. -/

namespace EntityScaffold.Documentation

open Schema

/-- The documented properties: one for each field name, in the order of the fields. -/
def properties (fs : List Field) : List (Text × Text) :=
  fs.foldl (fun ps f => Entries.put f.name (docType f.rawType f.isArray) ps) []

def required (fs : List Field) : List Text := (fs.filter fun f => !f.isOptional).map (·.name)

/-- The definition of a model's entity; system fields are not documented. -/
def definition (m : Model) (system : List Text) : Json :=
  let fs := m.editable system
  .object [(m.entity, .object [
    ("type".toList, .text "object".toList),
    ("required".toList, .list ((required fs).map .text)),
    ("properties".toList, .object ((properties fs).map fun p =>
      (p.1, .object [("type".toList, .text p.2)])))])]

/-- The definition as it stands in generated code: indented, and in ASCII only. -/
def codeForm : Json.Form := ⟨.indented 2, true⟩

end EntityScaffold.Documentation
