import EntityScaffold.Artifact.Catalog
import EntityScaffold.Data.Records

/-
Settings of a run: their defaults, how they are read from data, how a single one is set, and the data they are
written back to.
-/

namespace EntityScaffold

/-- The settings of a run. Without targets the built-in ones are meant; an empty list of targets means none. -/
structure Settings where
  projectRoot : Text := ".".toList
  schemaPath : Text := "db/prisma/schema.prisma".toList
  templatesFolder : Option Text := none
  apiPrefix : Text := "/api/v1".toList
  folders : Artifact.Folders := {}
  targets : Option (List SharedFile.Target) := none
  maxLength : Int := RequestChecks.defaultMaxLength
  optionalCap : Int := 2
  invalidCap : Int := 2
  systemFields : List Text := Schema.systemFields
  optionalSystemFields : List Text := Schema.optionalSystemFields
  deriving DecidableEq, Repr

namespace Settings

open Data Data.Reader

inductive Key where
  | projectRoot
  | schemaPath
  | templatesFolder
  | apiPrefix
  | folders
  | targets
  | maxLength
  | optionalCap
  | invalidCap
  | systemFields
  | optionalSystemFields
  deriving DecidableEq, Repr

namespace Key

def all : List Key := [
  projectRoot, schemaPath, templatesFolder, apiPrefix, folders, targets, maxLength, optionalCap, invalidCap,
  systemFields, optionalSystemFields]

def name : Key → Text
  | projectRoot => "project_root".toList
  | schemaPath => "schema_path".toList
  | templatesFolder => "templates_dir".toList
  | apiPrefix => "api_prefix".toList
  | folders => "paths".toList
  | targets => "patch_targets".toList
  | maxLength => "string_max_length".toList
  | optionalCap => "create_optional_cap".toList
  | invalidCap => "invalid_field_cap".toList
  | systemFields => "system_fields".toList
  | optionalSystemFields => "optional_system_fields".toList

def ofName? (t : Text) : Option Key := all.find? fun k => k.name = t

end Key

def readPrefix : Reader Text := fun d => (text d).map (Text.trimEnd (· = '/'))

def readFolders : Reader Artifact.Folders :=
  record "PathsConfig".toList (Artifact.Family.all.map Artifact.Family.name) fun es =>
    let folder (f : Artifact.Family) := withDefault f.name f.defaultFolder text es
    Artifact.Folders.mk <$> folder .models <*> folder .controllers <*> folder .services <*> folder .routes
      <*> folder .validators <*> folder .docPaths <*> folder .docDefinitions <*> folder .unitTests
      <*> folder .integrationTests

def readMaxLength : Reader Int := integerFrom 1

def readCap : Reader Int := integerFrom 0

def readTargets : Reader (Option (List SharedFile.Target)) := optional (list Records.target)

/-- Reads settings from data; a setting that is not given has its default. -/
def ofDatum : Reader Settings :=
  let default : Settings := {}
  record "GeneratorConfig".toList (Key.all.map Key.name) fun es =>
    Settings.mk <$> withDefault Key.projectRoot.name default.projectRoot text es
      <*> withDefault Key.schemaPath.name default.schemaPath text es
      <*> withDefault Key.templatesFolder.name default.templatesFolder (optional text) es
      <*> withDefault Key.apiPrefix.name default.apiPrefix readPrefix es
      <*> withDefault Key.folders.name default.folders readFolders es
      <*> withDefault Key.targets.name default.targets readTargets es
      <*> withDefault Key.maxLength.name default.maxLength readMaxLength es
      <*> withDefault Key.optionalCap.name default.optionalCap readCap es
      <*> withDefault Key.invalidCap.name default.invalidCap readCap es
      <*> withDefault Key.systemFields.name default.systemFields Records.texts es
      <*> withDefault Key.optionalSystemFields.name default.optionalSystemFields Records.texts es

def set (s : Settings) (k : Key) (d : Datum) : Checked Settings :=
  Checked.within (.key k.name) <| match k with
    | .projectRoot => (text d).map fun v => { s with projectRoot := v }
    | .schemaPath => (text d).map fun v => { s with schemaPath := v }
    | .templatesFolder => (optional text d).map fun v => { s with templatesFolder := v }
    | .apiPrefix => (readPrefix d).map fun v => { s with apiPrefix := v }
    | .folders => (readFolders d).map fun v => { s with folders := v }
    | .targets => (readTargets d).map fun v => { s with targets := v }
    | .maxLength => (readMaxLength d).map fun v => { s with maxLength := v }
    | .optionalCap => (readCap d).map fun v => { s with optionalCap := v }
    | .invalidCap => (readCap d).map fun v => { s with invalidCap := v }
    | .systemFields => (Records.texts d).map fun v => { s with systemFields := v }
    | .optionalSystemFields => (Records.texts d).map fun v => { s with optionalSystemFields := v }

/-- What comes of giving something to a name that is no setting. A name that starts with an underscore is free for any use, and
what it is given changes no setting. -/
def assignOther (s : Settings) (name : Text) : Checked Settings :=
  if name.head? = some '_' then .good s
  else (Checked.refuse (.noSuchSetting name)).within (.key name)

/-- Sets the setting of a name, if there is one. -/
def assign (s : Settings) (name : Text) (d : Datum) : Checked Settings :=
  match Key.ofName? name with
  | some k => s.set k d
  | none => s.assignOther name

/-- Sets the folder of a family in its place, by the name of the family. -/
def assignFolder (s : Settings) (name : Text) (d : Datum) : Checked Settings :=
  match Artifact.Family.ofName? name with
  | some family => ((text d).within (.key name)).map fun folder => { s with folders := s.folders.put family folder }
  | none => s.assignOther name

/-- A change of settings that are in use: of one of them, or of one of the folders. -/
inductive Assignment where
  | setting (name : Text) (value : Datum)
  | folder (name : Text) (value : Datum)

def checked (s : Settings) : Assignment → Checked Settings
  | .setting name d => s.assign name d
  | .folder name d => s.assignFolder name d

/-- The settings after a change: the same as before, if it is refused. -/
def after (s : Settings) (a : Assignment) : Settings :=
  match s.checked a with
  | .good s' => s'
  | .bad _ => s

def optionDatum (f : α → Datum) : Option α → Datum
  | none => .null
  | some a => f a

def insertionDatum (i : SharedFile.Insertion) : Datum := .ofEntries [
  ("anchor".toList, .text i.anchor),
  ("snippet".toList, .text i.snippet),
  ("section".toList, optionDatum .text i.sectionName)]

def targetDatum (t : SharedFile.Target) : Datum := .ofEntries [
  ("name".toList, .text t.name),
  ("file_path".toList, .text t.filePath),
  ("existence_marker".toList, .text t.existenceMarker),
  ("insertions".toList, .list (t.insertions.map insertionDatum))]

def foldersDatum (f : Artifact.Folders) : Datum :=
  .ofEntries (Artifact.Family.all.map fun family => (family.name, .text (f.of family)))

/-- The settings as data, from which they can be read again. -/
def toDatum (s : Settings) : Datum := .ofEntries [
  (Key.projectRoot.name, .text s.projectRoot),
  (Key.schemaPath.name, .text s.schemaPath),
  (Key.templatesFolder.name, optionDatum .text s.templatesFolder),
  (Key.apiPrefix.name, .text s.apiPrefix),
  (Key.folders.name, foldersDatum s.folders),
  (Key.targets.name, optionDatum (fun ts => .list (ts.map targetDatum)) s.targets),
  (Key.maxLength.name, .int s.maxLength),
  (Key.optionalCap.name, .int s.optionalCap),
  (Key.invalidCap.name, .int s.invalidCap),
  (Key.systemFields.name, .texts s.systemFields),
  (Key.optionalSystemFields.name, .texts s.optionalSystemFields)]

/-- The shared files that a run registers its entity in. -/
def sharedFiles (s : Settings) : List SharedFile.Target := s.targets.getD SharedFile.builtIn

end Settings

end EntityScaffold
