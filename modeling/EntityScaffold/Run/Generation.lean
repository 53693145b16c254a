import EntityScaffold.Run.Engine
import EntityScaffold.Run.Exporter
import EntityScaffold.Run.Registration
import EntityScaffold.Run.Report
import EntityScaffold.Run.Schema

/-
A run for one entity: its model is read, its artifacts are made, and it is registered in the shared files. What
stops the model stops the run before anything is written; what stops one artifact or one shared file is an error in the
report, and the run goes on.
-/

namespace EntityScaffold.Run

/-- What makes runs: the settings, whether anything is written, and a folder of templates in place of the settings' own. -/
structure Generator where
  settings : Settings
  dryRun : Bool := false
  templates : Option Path := none

def version : Text := "1.0.0".toList

def source : Text := "crudgen.generator".toList

def shownBool (b : Bool) : Text := if b then "True".toList else "False".toList

namespace Generator

def root (g : Generator) : Path := Path.ofText g.settings.projectRoot

def start (s : Settings) (dryRun : Bool) (templates : Option Path) : Job Generator := do
  let g : Generator := ⟨s, dryRun, templates⟩
  Job.note (Log.debug source
    ("CrudGenerator initialised: root=".toList ++ g.root.text ++ ", dry_run=".toList ++ shownBool dryRun ++
      ".".toList))
  return g

def model (g : Generator) (entity : Text) : Job Schema.Model := do
  let schema ← readSchema (g.root / Path.ofText g.settings.schemaPath)
  extract schema entity g.settings.optionalSystemFields

/-- The values that a model's templates are filled with, unless a number in them has too many digits; what is reported on the way
comes first. -/
def context (g : Generator) (m : Schema.Model) (permission : Text) : Job Template.Context :=
  let s := g.settings
  if (m.editable s.systemFields).all (RequestChecks.isWritable s.maxLength) then do
    let rules := RequestChecks.rules m s.maxLength s.systemFields
    let data := Payload.testData m s.optionalCap s.invalidCap s.systemFields
    Job.notes ([RequestChecks.rulesNote m rules, Payload.testDataNote m data] ++ Template.memberNotes m)
    return Template.fullContext m permission s.apiPrefix s.systemFields rules data
  else .failed .numberTooLong

end Generator

/-- The stages of a run that make files: what they keep from one artifact to the next. -/
structure Progress where
  engine : Engine
  exporter : Exporter
  report : Report

def Progress.fail (w : Progress) (message : Text) : Job Progress := do
  Job.note (Log.error source message)
  return { w with report := { w.report with errors := w.report.errors ++ [message] } }

def makeArtifact (folders : Artifact.Folders) (entity : Text) (context : Template.Context) (w : Progress)
    (k : Artifact.Kind) : Job Progress := do
  match ← (w.engine.render k context).attempt with
  | .error f => if f.isOfArtifact then w.fail (k.name ++ ": ".toList ++ f.message) else .failed f
  | .ok (content, engine) =>
    let w := { w with engine := engine }
    match ← (w.exporter.deliver k.name (Artifact.outputPath folders k entity) content).attempt with
    | .error f => if f.isOfArtifact then w.fail (k.name ++ ": ".toList ++ f.message) else .failed f
    | .ok (r, exporter) =>
      return { w with exporter := exporter, report := { w.report with files := w.report.files ++ [r] } }

def makeArtifacts (folders : Artifact.Folders) (entity : Text) (context : Template.Context) :
    List Artifact.Kind → Progress → Job Progress
  | [], w => return w
  | k :: ks, w => do
    let w ← makeArtifact folders entity context w k
    makeArtifacts folders entity context ks w

def registerOne (g : Generator) (entity : Text) (context : Template.Context) (w : Progress) (t : SharedFile.Target) :
    Job Progress := do
  match ← (register g.root g.dryRun t entity context).attempt with
  | .error f => if f.isSystem then w.fail (t.filePath ++ ": ".toList ++ f.message) else .failed f
  | .ok r =>
    return { w with report := { w.report with
      registrations := w.report.registrations ++ [r]
      warnings := w.report.warnings ++ r.warnings.map fun m => r.filePath ++ ": ".toList ++ m } }

def registerAll (g : Generator) (entity : Text) (context : Template.Context) :
    List SharedFile.Target → Progress → Job Progress
  | [], w => return w
  | t :: ts, w => do
    let w ← registerOne g entity context w t
    registerAll g entity context ts w

def artifactStage (g : Generator) (entity : Text) (context : Template.Context) (report : Report) : Job Progress := do
  let exporter := Exporter.start g.root entity version true g.dryRun
  let engine ← Engine.start g.settings g.templates
  let w ← makeArtifacts g.settings.folders entity context Artifact.Kind.all ⟨engine, exporter, report⟩
  Job.note (Log.info source
    (Text.ofNat w.report.files.length ++ "/".toList ++ Text.ofNat Artifact.Kind.all.length ++
      " artifact(s) ".toList ++ (if g.dryRun then "rendered".toList else "written".toList) ++ " for ".toList ++
      entity ++ ".".toList))
  return w

/-- The stage that writes the manifest, if one is asked for; a dry run writes none. -/
def manifestStage (g : Generator) (path : Option Path) (w : Progress) : Job Progress := do
  match path with
  | none => return w
  | some p =>
    if g.dryRun then return w
    match ← (w.exporter.writeManifest p).attempt with
    | .ok () => return w
    | .error f => if f.isSystem then w.fail ("Manifest: ".toList ++ f.message) else .failed f

def Generator.run (g : Generator) (entity permission : Text) (manifest : Option Path) : Job Report := do
  let started ← Job.time
  let m ← Job.timed "extract model".toList (g.model entity)
  let context ← g.context m permission
  let report : Report := {
    entity := entity
    permission := permission
    projectRoot := g.root.text
    dryRun := g.dryRun
    warnings := m.warnings }
  let w ← Job.timed "render artifacts".toList (artifactStage g entity context report)
  let w ← Job.timed "patch shared files".toList (registerAll g entity context g.settings.sharedFiles w)
  let w ← manifestStage g manifest w
  let stopped ← Job.time
  return { w.report with
    success := w.report.errors.isEmpty
    nanoseconds := stopped - started
    manifest := w.exporter.manifest }

end EntityScaffold.Run
