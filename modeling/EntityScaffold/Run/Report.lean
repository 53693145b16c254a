import EntityScaffold.Artifact.Manifest
import EntityScaffold.Log
import EntityScaffold.SharedFile.Registration

/- The report of a run, and its summary for a person. -/

namespace EntityScaffold.Run

structure Report where
  entity : Text := []
  permission : Text := []
  projectRoot : Text := []
  dryRun : Bool := false
  success : Bool := false
  nanoseconds : Nat := 0
  files : List Artifact.FileRecord := []
  registrations : List SharedFile.Registration := []
  warnings : List Text := []
  errors : List Text := []
  manifest : Artifact.Manifest := {}
  deriving DecidableEq, Repr

namespace Report

def paths (r : Report) : List Text := r.files.map (·.path)

def heavyRule : Text := List.replicate 60 '='

def lightRule : Text := List.replicate 60 '─'

/-- A list under a heading with its count, below a light rule; an empty list is left out. -/
def listing (heading mark : Text) (items : List Text) : List Text :=
  if items.isEmpty then []
  else lightRule :: ("  ".toList ++ heading ++ " (".toList ++ Text.ofNat items.length ++ "):".toList) ::
    items.map fun i => "    ".toList ++ mark ++ " ".toList ++ i

def headLine (label : String) (value : Text) : Text := "  ".toList ++ Text.padTo 13 label.toList ++ value

def summaryLines (clock : Log.Clock) (r : Report) : List Text :=
  let verb := if r.dryRun then "Rendered (dry run)".toList else "Generated".toList
  [heavyRule,
    "  CrudGen - Generation Report".toList,
    heavyRule,
    headLine "Status:" (if r.success then "✅ SUCCESS".toList else "❌ FAILED".toList),
    headLine "Entity:" r.entity,
    headLine "Permission:" r.permission,
    headLine "Project:" r.projectRoot,
    headLine "Time:" (clock.totalSeconds r.nanoseconds),
    lightRule,
    "  ".toList ++ verb ++ " Files (".toList ++ Text.ofNat r.files.length ++ "):".toList] ++
  r.files.map (fun f => "    ✓ ".toList ++ Text.padTo 18 f.kind ++ " ".toList ++ f.path) ++
  listing "Shared Files".toList "•".toList (r.registrations.map fun p => p.filePath ++ ": ".toList ++ p.state) ++
  listing "Warnings".toList "⚠".toList r.warnings ++
  listing "Errors".toList "✗".toList r.errors ++
  [heavyRule]

def summary (clock : Log.Clock) (r : Report) : Text := Text.joinWith ['\n'] (summaryLines clock r)

end Report

end EntityScaffold.Run
