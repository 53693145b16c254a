import EntityScaffold.Run.Files
import EntityScaffold.SharedFile.Registration

/- Registering an entity in the shared files of a project. -/

namespace EntityScaffold.Run

open SharedFile

def registrationSource : Text := "crudgen.patcher".toList

/-- Registers an entity in one shared file below the root. A missing file is a warning, and a file that shows the entity to be
registered is left alone. -/
def register (root : Path) (dryRun : Bool) (t : Target) (entity : Text) (context : Template.Context) :
    Job Registration := do
  let note (severity : Log.Severity) (message : Text) := Job.note ⟨severity, registrationSource, .plain message⟩
  let p := root / Path.ofText t.filePath
  match ← Job.look p with
  | .file =>
    let content ← readText p
    match t.register context content with
    | .registered =>
      note .info (entity ++ " already registered in ".toList ++ t.filePath ++ "; leaving it untouched.".toList)
      return { target := t.name, filePath := t.filePath }
    | .spliced s =>
      Job.notes (s.warnings.map fun w => Log.warning registrationSource (t.filePath ++ ": ".toList ++ w))
      if s.content ≠ content && !dryRun then
        let _ ← writeFile p s.content true
      note .info ("Patched ".toList ++ t.filePath ++ " for ".toList ++ entity ++ ": ".toList ++
        Text.ofNat s.applied ++ "/".toList ++ Text.ofNat t.insertions.length ++ " insertion(s)".toList ++
        (if dryRun then " (dry run)".toList else []) ++ ".".toList)
      return {
        target := t.name
        filePath := t.filePath
        applied := s.applied > 0
        insertions := s.applied
        warnings := s.warnings }
  | _ =>
    let message := "Shared file not found: ".toList ++ t.filePath
    note .warning message
    return { target := t.name, filePath := t.filePath, warnings := [message] }

end EntityScaffold.Run
