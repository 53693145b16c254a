import EntityScaffold.Run.Files
import EntityScaffold.Schema.Extraction

/- Reading the schema file and taking an entity's model from it. -/

namespace EntityScaffold.Run

/-- Reads the schema file; where it is no readable file, that is the schema's failure. -/
def readSchema (p : Path) : Job Text := do
  match ← Job.look p with
  | .nothing => .failed (.schemaUnreadable p.text "file not found".toList)
  | .folder => .failed (.schemaUnreadable p.text "not a file".toList)
  | .file => pure ()
  match ← (readText p).attempt with
  | .ok t =>
    Job.note (Log.info Schema.source
      ("Loaded schema file ".toList ++ p.text ++ " (".toList ++ Text.ofNat t.length ++ " bytes).".toList))
    return t
  | .error f =>
    if f.isSystem || f.isUndecodable then .failed (.schemaUnreadable p.text f.message) else .failed f

/-- The model of an entity; an entity without a name has none. -/
def extract (schema entity : Text) (optional : List Text) : Job Schema.Model := do
  match Schema.block? schema entity with
  | none => .failed (.entityMissing entity)
  | some body =>
    Job.notes (Schema.notesOfBody entity optional body)
    if entity.isEmpty then .failed (.recordInvalid [⟨[.key "entity_name".toList], .emptyText⟩])
    else return Schema.modelOfBody entity optional body

end EntityScaffold.Run
