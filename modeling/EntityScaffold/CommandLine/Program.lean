import EntityScaffold.CommandLine.Arguments
import EntityScaffold.CommandLine.Help
import EntityScaffold.Prompt
import EntityScaffold.Run.Generation
import EntityScaffold.Settings.Resolve

/-
A whole run of the program for a command line. Names that are not given are asked for, the settings are put together, the
entity is generated, and the report is shown.
-/

namespace EntityScaffold.CommandLine

/-- How a run of the program ends. -/
inductive Outcome where
  | informed
  | generated
  | schemaFailed
  | generationFailed
  | settingsFailed
  | nameMissing
  | misused
  deriving DecidableEq, Repr

def Outcome.status : Outcome → Nat
  | informed => 0
  | generated => 0
  | schemaFailed => 1
  | generationFailed => 2
  | settingsFailed => 3
  | nameMissing => 4
  | misused => 2

namespace Program

def source : Text := "crudgen.cli".toList

def versionLine : Text := "CrudGen v".toList ++ Run.version ++ ['\n']

def complain (c : Complaint) : Job Outcome := do
  Job.print .errors Help.usage
  Job.print .errors (programName ++ ": error: ".toList ++ c.message ++ ['\n'])
  return .misused

inductive NameFault where
  | blank (label : Text)
  | inputEnded (label : Text)
  deriving DecidableEq, Repr

def resolveName (label : Text) : Option Value → Job (Except NameFault Text)
  | some .nothing => .failed .nameWithoutText
  | some (.text given) =>
    match Prompt.name? given with
    | some n => .done (.ok n)
    | none => .done (.error (.blank label))
  | none => .ask (.name label) fun
    | some n => .done (.ok n)
    | none => .done (.error (.inputEnded label))

def refuseName : NameFault → Job Outcome
  | .blank label => do
    Job.note (Log.error source (Prompt.complaint label))
    Job.print .errors Help.usage
    return .nameMissing
  | .inputEnded label => do
    Job.note (Log.error source ("No input for ".toList ++ label ++ "; aborting.".toList))
    return .nameMissing

def datum : Value → Data.Datum
  | .text t => .text t
  | .nothing => .list []

def overrides (a : Arguments) : List (Text × Data.Datum) :=
  (a.schema.map fun v => (Settings.Key.schemaPath.name, datum v)).toList ++
    (a.templates.map fun v => (Settings.Key.templatesFolder.name, datum v)).toList

/-- A path that is given; an empty one counts as not given. -/
def path? (given : Option Value) : Option Path := (given.bind Value.nonempty?).map Path.ofText

/-- Generates the entity under settings that are put together. -/
def generateWith (clock : Log.Clock) (a : Arguments) (entity permission : Text) (s : Settings) : Job Outcome := do
  if a.dryRun then
    Job.note (Log.info source "Dry-run mode: files will not be written to disk.".toList)
  let g ← Run.Generator.start s a.dryRun none
  match ← (g.run entity permission (path? a.manifest)).attempt with
  | .ok report =>
    Job.print .output (report.summary clock ++ ['\n'])
    return if report.success then .generated else .generationFailed
  | .error f =>
    if f.isOfSchema then
      Job.note (Log.error source f.message)
      Job.print .errors ("Error: ".toList ++ f.message ++ ['\n'])
      return .schemaFailed
    else .failed f

def generate (clock : Log.Clock) (a : Arguments) (entity permission : Text) : Job Outcome := do
  match ← (Settings.resolve (path? a.settings) (path? a.projectRoot) (overrides a)).attempt with
  | .ok s => generateWith clock a entity permission s
  | .error f =>
    if f.isOfSettings then
      Job.note (Log.error source f.message)
      return .settingsFailed
    else .failed f

def closing (o : Outcome) : Log.Entry :=
  if o.status = 0 then Log.info source "Generation completed successfully.".toList
  else Log.error source ("Generation failed with exit code ".toList ++ Text.ofNat o.status ++ ".".toList)

def runNamed (clock : Log.Clock) (a : Arguments) (entity permission : Text) : Job Outcome := do
  Job.notes [
    Log.info source ("Model:       ".toList ++ entity),
    Log.info source ("Permission:  ".toList ++ permission),
    Log.info source ("Dry run:     ".toList ++ Run.shownBool a.dryRun)]
  let o ← generate clock a entity permission
  Job.note (closing o)
  return o

def runWith (clock : Log.Clock) (a : Arguments) : Job Outcome := do
  match ← resolveName "Model name".toList a.model with
  | .error fault => refuseName fault
  | .ok entity =>
    match ← resolveName "Permission name".toList a.permission with
    | .error fault => refuseName fault
    | .ok permission => runNamed clock a entity permission

def run (clock : Log.Clock) (words : List Text) : Job Outcome :=
  match Arguments.read words with
  | .ok a => runWith clock a
  | .error .help => do
    Job.print .output help
    return .informed
  | .error .version => do
    Job.print .output versionLine
    return .informed
  | .error (.wrong c) => complain c

/-- The least severity that a command line lets through to the log. -/
def threshold (words : List Text) : Option Log.Severity :=
  match Arguments.read words with
  | .ok a => a.threshold
  | .error _ => none

end Program

end EntityScaffold.CommandLine
