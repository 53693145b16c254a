import EntityScaffold.Text.Basic

/- The switches of the command line: their names, what they take, and what they are for. -/

namespace EntityScaffold.CommandLine

inductive Switch where
  | help
  | version
  | model
  | permission
  | settings
  | projectRoot
  | schema
  | templates
  | dryRun
  | manifest
  | verbose
  | quiet
  deriving DecidableEq, Repr

inductive Group where
  | general
  | entity
  | settings
  | modes
  | verbosity
  deriving DecidableEq, Repr

def Group.all : List Group := [.general, .entity, .settings, .modes, .verbosity]

def Group.title : Group → String
  | .general => "options"
  | .entity => "entity"
  | .settings => "configuration"
  | .modes => "operation modes"
  | .verbosity => "verbosity"

/-- What is known of a switch: its names, the short one first, the word that stands for its value if it takes one, its
group, and its purpose. -/
structure Description where
  names : List String
  value : Option String
  group : Group
  purpose : String
  deriving Repr

namespace Switch

def all : List Switch := [.help, .version, .model, .permission, .settings, .projectRoot, .schema, .templates, .dryRun,
  .manifest, .verbose, .quiet]

theorem mem_all (s : Switch) : s ∈ all := by cases s <;> decide

def describe : Switch → Description
  | help => ⟨["-h", "--help"], none, .general, "show this help message and exit"⟩
  | version => ⟨["--version"], none, .general, "show program's version number and exit"⟩
  | model => ⟨["-m", "--model"], some "NAME", .entity,
      "Entity (model) name as declared in the schema. Prompted for when omitted."⟩
  | permission => ⟨["-p", "--permission"], some "NAME", .entity,
      "Permission name used by the generated routes. Prompted for when omitted."⟩
  | settings => ⟨["-c", "--config"], some "PATH", .settings,
      "YAML config file (default: crudgen.yaml in the project root, if present)."⟩
  | projectRoot => ⟨["--project-root"], some "DIR", .settings,
      "Root of the target project (default: current directory)."⟩
  | schema => ⟨["--schema"], some "PATH", .settings, "Schema file, relative to the project root."⟩
  | templates => ⟨["--templates"], some "DIR", .settings,
      "Template directory (default: the templates shipped with crudgen)."⟩
  | dryRun => ⟨["--dry-run"], none, .modes,
      "Render everything and compute every patch without writing any file."⟩
  | manifest => ⟨["--manifest"], some "PATH", .modes,
      "Write a JSON manifest of the generated files to PATH."⟩
  | verbose => ⟨["-v", "--verbose"], none, .verbosity, "Increase verbosity (-v for INFO, -vv for DEBUG)."⟩
  | quiet => ⟨["-q", "--quiet"], none, .verbosity, "Suppress all log output."⟩

def names (s : Switch) : List Text := s.describe.names.map String.toList

def takesValue (s : Switch) : Bool := s.describe.value.isSome

def title (s : Switch) : Text := Text.joinWith ['/'] s.names

def index : List (Text × Switch) := all.flatMap fun s => s.names.map fun n => (n, s)

def named? (t : Text) : Option Switch := (index.find? fun e => e.1 = t).map (·.2)

/-- The names that start with a text, with their switches. -/
def startingWith (t : Text) : List (Text × Switch) := index.filter fun e => t.isPrefixOf e.1

end Switch

end EntityScaffold.CommandLine
