import EntityScaffold.Run.Files
import EntityScaffold.Settings.Basic
import EntityScaffold.Yaml.Value

/-
The settings of a run: the defaults, over them those of a settings file, over these the project's root if it is given, and
over all the overrides.
-/

namespace EntityScaffold.Settings

open Data (Datum)

/-- The entries of a settings text; a text without content has none. -/
def entriesOf (p : Path) (t : Text) : Except Failure (List (Datum × Datum)) :=
  match Yaml.read t with
  | .error .malformed => .error (.settingsMalformed p.text)
  | .error (.flawed f) => .error (.flawed f)
  | .ok .null => .ok []
  | .ok (.map entries) => .ok entries
  | .ok d => .error (.settingsNotMap p.text d.kindName)

def loadFile (p : Path) : Job (List (Datum × Datum)) := do
  match ← (Run.readText p).attempt with
  | .ok t => Job.ofExcept (entriesOf p t)
  | .error f => if f.isSystem then .failed (.settingsUnreadable p.text f.message) else .failed f

/-- The file that is read without being named, if it is there. -/
def defaultFile : Path := Path.ofText "crudgen.yaml".toList

/-- The entries of a settings file, with a note that it was read. -/
def loadAndNote (p : Path) : Job (List (Datum × Datum)) := do
  let entries ← loadFile p
  Job.note (Log.info "crudgen.generator".toList ("Loaded config file ".toList ++ p.text ++ ".".toList))
  return entries

/-- The entries of the named settings file, or of the default one in the project's root. -/
def fileEntries (file root : Option Path) : Job (List (Datum × Datum)) :=
  match file with
  | some p => loadAndNote p
  | none => do
    let p := root.getD Path.here / defaultFile
    match ← Job.look p with
    | .file => loadAndNote p
    | _ => return []

/-- Entries with overrides; one that is null overrides nothing. -/
def overridden (entries : List (Datum × Datum)) (overrides : List (Text × Datum)) : List (Datum × Datum) :=
  overrides.foldl (fun es o =>
    match o.2 with
    | .null => es
    | d => Datum.put o.1 d es) entries

def resolve (file root : Option Path) (overrides : List (Text × Datum)) : Job Settings := do
  let entries ← fileEntries file root
  let entries := match root with
    | some p => Datum.put Key.projectRoot.name (.text p.text) entries
    | none => entries
  match ofDatum (.map (overridden entries overrides)) with
  | .good s => return s
  | .bad issues => .failed (.settingsInvalid issues)

end EntityScaffold.Settings
