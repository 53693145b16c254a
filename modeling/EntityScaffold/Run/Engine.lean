import EntityScaffold.Run.Files
import EntityScaffold.Settings.Basic

/-
The template engine: it takes templates from a folder or from the packaged ones, reads each kind at most once, and
fills it.
-/

namespace EntityScaffold.Run

/-- An engine: the folder of its templates, if it has one, and the templates that were read so far. -/
structure Engine where
  folder : Option Path
  templates : List (Artifact.Kind × Text) := []

namespace Engine

def source : Text := "crudgen.templates".toList

def folderText (e : Engine) : Text :=
  match e.folder with
  | some p => p.text
  | none => "<packaged>".toList

/-- The folder of templates: the given one, else the one that the settings name below the project's root. -/
def folderOf (s : Settings) (given : Option Path) : Option Path :=
  match given, s.templatesFolder with
  | some p, _ => some p
  | none, none => none
  | none, some name =>
    if name.isEmpty then none else some (Path.ofText s.projectRoot / Path.ofText name)

def start (s : Settings) (given : Option Path) : Job Engine := do
  let e : Engine := { folder := folderOf s given }
  Job.note (Log.debug source ("TemplateEngine using templates from ".toList ++ e.folderText ++ ".".toList))
  return e

/-- Reads the template of a kind where the engine takes its templates from. -/
def readTemplate (e : Engine) (k : Artifact.Kind) : Job Text :=
  match e.folder with
  | none => return k.packaged
  | some folder => do
    let p := folder / Path.ofText k.layout.template
    match ← (readText p).attempt with
    | .ok t => return t
    | .error f =>
      if f.isSystem || f.isUndecodable then .failed (.templateUnreadable k p.text f.message) else .failed f

/-- The template of a kind, and the engine that has read it. -/
def load (e : Engine) (k : Artifact.Kind) : Job (Text × Engine) := do
  match Entries.get? k e.templates with
  | some t => return (t, e)
  | none =>
    let t ← e.readTemplate k
    return (t, { e with templates := Entries.put k t e.templates })

/-- What is reported about a filled template: the known names it still has slots for. -/
def leftoverNotes (k : Artifact.Kind) (content : Text) : List Log.Entry :=
  match Template.leftovers content with
  | [] => []
  | names => [Log.warning source
      ("Template '".toList ++ k.name ++ "' left placeholder(s) unfilled: ".toList ++
        Text.joinWith ", ".toList names)]

/-- The filled template of a kind, and the engine that has read it. -/
def render (e : Engine) (k : Artifact.Kind) (context : Template.Context) : Job (Text × Engine) := do
  let (template, e) ← e.load k
  let content := Template.substitute template context
  Job.notes (leftoverNotes k content)
  return (content, e)

end Engine

end EntityScaffold.Run
