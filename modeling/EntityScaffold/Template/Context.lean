import EntityScaffold.Documentation
import EntityScaffold.Payload.TestData
import EntityScaffold.RequestChecks
import EntityScaffold.Template.Substitution

/- The values that an entity's templates are filled with. -/

namespace EntityScaffold.Template

open Schema

def member (f : Field) : Text :=
  f.name ++ (if f.isOptional then "?".toList else []) ++ ": ".toList ++ codeType f.rawType f.isArray ++ ";".toList

/-- The members of the generated interface, system fields included, one a line. -/
def members (m : Model) : Text := Text.joinWith "\n    ".toList (m.fields.map member)

def memberNotes (m : Model) : List Log.Entry := m.fields.flatMap fun f => codeTypeNotes f.rawType

/-- Chains of checks as they stand in a template: one after the other, each on a line of its own. -/
def chains (rules : List Text) : Text := Text.joinWith ",\n      ".toList rules

/-- The values that come from the entity's name and the address prefix alone. -/
def nameContext (entity apiPrefix : Text) : Context :=
  let lower := Naming.lowerCamel entity
  [("ModelName".toList, entity),
    ("modelName".toList, lower),
    ("pluralModelName".toList, Naming.plural lower),
    ("apiPrefix".toList, apiPrefix)]

def fullContext (m : Model) (permission apiPrefix : Text) (system : List Text) (rules : RequestChecks.Rules)
    (data : Payload.TestData) : Context :=
  nameContext m.entity apiPrefix ++ [
    ("permission".toList, permission),
    ("modelFields".toList, members m),
    ("createValidation".toList, chains rules.create),
    ("updateValidation".toList, chains rules.update),
    ("swaggerDef".toList, Json.render Documentation.codeForm (Documentation.definition m system))] ++
  data.placeholders

/-- The names that a full context has values for, in the order of their code points. -/
def knownNames : List Text := [
  "ModelName".toList, "apiPrefix".toList, "createValidation".toList, "modelFields".toList, "modelName".toList,
  "permission".toList, "pluralModelName".toList, "swaggerDef".toList, "testCreateData".toList,
  "testCreateExpectation".toList, "testFilterParam".toList, "testInvalidData".toList,
  "testPartialUpdateData".toList, "testUpdateData".toList, "testUpdateExpectation".toList,
  "updateValidation".toList]

/-- The known names that a text still has slots for. -/
def leftovers (t : Text) : List Text := knownNames.filter (slots t).contains

end EntityScaffold.Template
