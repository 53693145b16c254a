import EntityScaffold.Data.Reader
import EntityScaffold.Payload.TestData
import EntityScaffold.RequestChecks
import EntityScaffold.SharedFile.Registration

/- Readers for the records of this library: fields, models, chains of checks, payloads, insertions and shared files. -/

namespace EntityScaffold.Data.Records

open Reader

def names (ns : List String) : List Text := ns.map String.toList

def texts : Reader (List Text) := tuple text

def field : Reader Schema.Field :=
  record "FieldDescriptor".toList (names ["name", "raw_type", "is_optional", "is_array", "is_unique"]) fun es =>
    Schema.Field.mk <$> required "name".toList nonEmptyText es
      <*> required "raw_type".toList nonEmptyText es
      <*> withDefault "is_optional".toList false boolean es
      <*> withDefault "is_array".toList false boolean es
      <*> withDefault "is_unique".toList false boolean es

def model : Reader Schema.Model :=
  record "ModelDefinition".toList (names ["entity_name", "fields", "warnings"]) fun es =>
    Schema.Model.mk <$> required "entity_name".toList nonEmptyText es
      <*> withDefault "fields".toList [] (tuple field) es
      <*> withDefault "warnings".toList [] texts es

def rules : Reader RequestChecks.Rules :=
  record "ValidationRuleSet".toList (names ["create_rules", "update_rules"]) fun es =>
    RequestChecks.Rules.mk <$> withDefault "create_rules".toList [] texts es
      <*> withDefault "update_rules".toList [] texts es

def testData : Reader Payload.TestData :=
  record "TestDataSet".toList
    (names ["create_data", "create_expectation", "update_data", "update_expectation", "partial_update_data",
      "invalid_data", "filter_param"]) fun es =>
    Payload.TestData.mk <$> withDefault "create_data".toList [] texts es
      <*> withDefault "create_expectation".toList [] texts es
      <*> withDefault "update_data".toList [] texts es
      <*> withDefault "update_expectation".toList [] texts es
      <*> withDefault "partial_update_data".toList [] texts es
      <*> withDefault "invalid_data".toList [] texts es
      <*> withDefault "filter_param".toList "id=1".toList text es

def insertion : Reader SharedFile.Insertion :=
  record "Insertion".toList (names ["anchor", "snippet", "section"]) fun es =>
    SharedFile.Insertion.mk <$> required "anchor".toList nonEmptyText es
      <*> required "snippet".toList nonEmptyText es
      <*> withDefault "section".toList none (optional text) es

def target : Reader SharedFile.Target :=
  record "PatchTarget".toList (names ["name", "file_path", "existence_marker", "insertions"]) fun es =>
    SharedFile.Target.mk <$> required "name".toList nonEmptyText es
      <*> required "file_path".toList nonEmptyText es
      <*> required "existence_marker".toList nonEmptyText es
      <*> required "insertions".toList (tupleFrom 1 insertion) es

def registration : Reader SharedFile.Registration :=
  record "PatchResult".toList (names ["target_name", "file_path", "applied", "insertions_applied", "warnings"])
    fun es =>
    SharedFile.Registration.mk <$> required "target_name".toList text es
      <*> required "file_path".toList text es
      <*> withDefault "applied".toList false boolean es
      <*> withDefault "insertions_applied".toList 0 integer es
      <*> withDefault "warnings".toList [] texts es

end EntityScaffold.Data.Records
