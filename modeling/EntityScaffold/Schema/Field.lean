import EntityScaffold.Text.Basic

/- Fields of an entity and the entity's model: what a schema declares, in source order. -/

namespace EntityScaffold.Schema

/-- One declared field; its type carries no marks, which are in the flags instead. -/
structure Field where
  name : Text
  rawType : Text
  isOptional : Bool := false
  isArray : Bool := false
  isUnique : Bool := false
  deriving DecidableEq, Repr

def Field.typeToken (f : Field) : Text := if f.isArray then f.rawType ++ "[]".toList else f.rawType

/-- The field in angle brackets, as it is shown to a person. -/
def Field.label (f : Field) : Text :=
  "<Field ".toList ++ f.name ++ ":".toList ++ f.typeToken ++
    (if f.isUnique then " unique".toList else []) ++
    (if f.isOptional then " optional".toList else " required".toList) ++ ">".toList

/-- The fields of one entity in source order, and a warning for each line that was no field. -/
structure Model where
  entity : Text
  fields : List Field := []
  warnings : List Text := []
  deriving DecidableEq, Repr

/-- Fields that the persistence layer manages; no request sets them. -/
def systemFields : List Text :=
  ["id".toList, "createdAt".toList, "updatedAt".toList, "deletedAt".toList]

/-- System fields that are optional whatever their declaration says. -/
def optionalSystemFields : List Text := ["id".toList, "deletedAt".toList]

/-- The fields that are no system fields, in source order. -/
def Model.editable (m : Model) (system : List Text) : List Field :=
  m.fields.filter fun f => !system.contains f.name

def Model.field? (m : Model) (name : Text) : Option Field := m.fields.find? fun f => f.name = name

end EntityScaffold.Schema
