import EntityScaffold.Proofs.CommandLine.Program

/-
What the status of the program says: which error it stands for, and what has become of the tree by then.
-/

namespace EntityScaffold.CommandLine

open Program
open Artifact (Kind)

variable {clock : Log.Clock} {words : List Text} {a : Arguments} {t u : FileTree} {input : List Text} {w : World}
variable {r : Except Failure Outcome} {o : Outcome}

/-- The outcome of some arguments, by the input for the names and by the tree for the rest. -/
def Arguments.verdict (a : Arguments) (t : FileTree) (input : List Text) : Except Failure Outcome :=
  match a.names input with
  | .error f => .error f
  | .ok (.error _) => .ok .nameMissing
  | .ok (.ok (entity, permission)) =>
    match a.settingsIn t with
    | .error f => if f.isOfSettings then .ok .settingsFailed else .error f
    | .ok s =>
      match ((a.generator s).run entity permission (path? a.manifest)).resultIn t with
      | .ok report => .ok (if report.errors.isEmpty then .generated else .generationFailed)
      | .error f => if f.isOfSchema then .ok .schemaFailed else .error f

theorem Concluded.verdict_eq (concluded : Concluded a t input r u) : a.verdict t input = r := by
  cases concluded with
  | nameWithoutText names => simp only [Arguments.verdict, names]
  | nameMissing names => simp only [Arguments.verdict, names]
  | settingsFailed names settings ofSettings => simp only [Arguments.verdict, names, settings, ofSettings, if_true]
  | settingsStopped names settings other => simp only [Arguments.verdict, names, settings, if_neg other]
  | reported names settings run =>
    have result := run.resultIn_eq (Run.unattended_run _ _ _ _)
    have success := ((Run.ensures_run _ _ _ _ t).of_ends run).success
    simp only [Arguments.verdict, names, settings, result, success]
  | schemaFailed names settings run ofSchema =>
    have result := run.resultIn_eq (Run.unattended_run _ _ _ _)
    simp only [Arguments.verdict, names, settings, result, ofSchema, if_true]
  | runStopped names settings run other =>
    have result := run.resultIn_eq (Run.unattended_run _ _ _ _)
    simp only [Arguments.verdict, names, settings, result, if_neg other]

/-- What a run that is for some arguments ends with, outcome by outcome. -/
def Arguments.Reaches (a : Arguments) (t : FileTree) (input : List Text) : Outcome → Prop
  | .generated => ∃ report, a.Generates t input (.ok report) ∧ report.errors = []
  | .generationFailed => ∃ report, a.Generates t input (.ok report) ∧ report.errors ≠ []
  | .schemaFailed => ∃ f, a.Generates t input (.error f) ∧ f.isOfSchema = true
  | .settingsFailed => (∃ names, a.names input = .ok (.ok names)) ∧ ∃ f, a.settingsIn t = .error f ∧ f.isOfSettings = true
  | .nameMissing => ∃ fault, a.names input = .ok (.error fault)
  | .informed => False
  | .misused => False

theorem Arguments.verdict_eq_ok_iff : a.verdict t input = .ok o ↔ a.Reaches t input o := by
  unfold Arguments.verdict
  cases names : a.names input with
  | error f => cases o <;> simp [Arguments.Reaches, Arguments.Generates, names]
  | ok given =>
    cases given with
    | error fault => cases o <;> simp [Arguments.Reaches, Arguments.Generates, names]
    | ok given =>
      obtain ⟨entity, permission⟩ := given
      cases settings : a.settingsIn t with
      | error f =>
        cases hf : f.isOfSettings <;> cases o <;>
          simp [Arguments.Reaches, Arguments.Generates, names, settings, hf]
      | ok s =>
        have generates (r : Except Failure Run.Report) : a.Generates t input r ↔
            ((a.generator s).run entity permission (path? a.manifest)).resultIn t = r := by
          simp [Arguments.Generates, names, settings]
        dsimp only
        cases run : ((a.generator s).run entity permission (path? a.manifest)).resultIn t with
        | error f =>
          cases hf : f.isOfSchema <;> cases o <;> simp [Arguments.Reaches, generates, run, hf, names, settings]
        | ok report =>
          cases hr : report.errors <;> cases o <;> simp [Arguments.Reaches, generates, run, hr, names, settings]

/-- The outcome of a command line that is not for generating. -/
def Stop.outcome : Stop → Outcome
  | .help => .informed
  | .version => .informed
  | .wrong _ => .misused

/-- However a run is made, its tree aside: how it ends. -/
theorem run_result (clock : Log.Clock) (words : List Text) (w : World) :
    (World.run (Program.run clock words) w).1 =
      match Arguments.read words with
      | .ok a => a.verdict w.tree w.input
      | .error stop => .ok stop.outcome := by
  unfold Program.run
  cases Arguments.read words with
  | ok a => exact (concluded_runWith clock a w).verdict_eq.symm
  | error stop => cases stop <;> rfl

/-- The status that the program exits with; a failure that nothing catches gives none. -/
def status? (clock : Log.Clock) (words : List Text) (w : World) : Option Nat :=
  (World.run (Program.run clock words) w).1.toOption.map Outcome.status

theorem status?_of_ok {o : Outcome} (h : (World.run (Program.run clock words) w).1 = .ok o) :
    status? clock words w = some o.status := by
  rw [status?, h]
  rfl

theorem status?_eq_some_iff {n : Nat} :
    status? clock words w = some n ↔ ∃ o : Outcome, (World.run (Program.run clock words) w).1 = .ok o ∧ o.status = n := by
  unfold status?
  cases (World.run (Program.run clock words) w).1 with
  | ok o => simp [Except.toOption]
  | error f => simp [Except.toOption]

theorem status?_of_read {n : Nat} (read : Arguments.read words = .ok a) :
    status? clock words w = some n ↔ ∃ o : Outcome, a.Reaches w.tree w.input o ∧ o.status = n := by
  rw [status?_eq_some_iff, run_result, read]
  exact exists_congr fun o => and_congr_left fun _ => a.verdict_eq_ok_iff

theorem Outcome.exists_iff {p : Outcome → Prop} :
    (∃ o, p o) ↔ p .informed ∨ p .generated ∨ p .schemaFailed ∨ p .generationFailed ∨ p .settingsFailed ∨
      p .nameMissing ∨ p .misused := by
  constructor
  · rintro ⟨o, h⟩
    cases o <;> simp [h]
  · rintro (h | h | h | h | h | h | h) <;> exact ⟨_, h⟩

/-- Every command line, input and tree: what each status says. Two stands for a report with errors, and also for words that
are no command line. -/
theorem status?_meaning (clock : Log.Clock) (words : List Text) (w : World) :
    (status? clock words w = some 0 ↔
      (Arguments.read words = .error .help ∨ Arguments.read words = .error .version) ∨
        ∃ a report, Arguments.read words = .ok a ∧ a.Generates w.tree w.input (.ok report) ∧ report.errors = []) ∧
    (status? clock words w = some 1 ↔
      ∃ a f, Arguments.read words = .ok a ∧ a.Generates w.tree w.input (.error f) ∧ f.isOfSchema = true) ∧
    (status? clock words w = some 2 ↔
      (∃ c, Arguments.read words = .error (.wrong c)) ∨
        ∃ a report, Arguments.read words = .ok a ∧ a.Generates w.tree w.input (.ok report) ∧ report.errors ≠ []) ∧
    (status? clock words w = some 3 ↔
      ∃ a names f, Arguments.read words = .ok a ∧ a.names w.input = .ok (.ok names) ∧
        a.settingsIn w.tree = .error f ∧ f.isOfSettings = true) ∧
    (status? clock words w = some 4 ↔
      ∃ a fault, Arguments.read words = .ok a ∧ a.names w.input = .ok (.error fault)) ∧
    ∀ n, status? clock words w = some n → n ≤ 4 := by
  have low (n : Nat) (h : status? clock words w = some n) : n ≤ 4 := by
    obtain ⟨o, -, rfl⟩ := status?_eq_some_iff.1 h
    cases o <;> decide
  cases read : Arguments.read words with
  | ok a =>
    have reached (n : Nat) : status? clock words w = some n ↔ ∃ o : Outcome, a.Reaches w.tree w.input o ∧ o.status = n :=
      status?_of_read read
    refine ⟨?_, ?_, ?_, ?_, ?_, low⟩
    all_goals simp [reached, Outcome.exists_iff, Outcome.status, Arguments.Reaches]
  | error stop =>
    have ended : (World.run (Program.run clock words) w).1 = .ok stop.outcome := by rw [run_result, read]
    have status := status?_of_ok ended
    refine ⟨?_, ?_, ?_, ?_, ?_, low⟩
    all_goals cases stop <;> simp [status, Stop.outcome, Outcome.status]

theorem status?_of_wrong {c : Complaint} (clock : Log.Clock) (read : Arguments.read words = .error (.wrong c)) (w : World) :
    status? clock words w = some 2 := by
  refine status?_of_ok (o := .misused) ?_
  rw [run_result, read]
  rfl

/-- An unknown switch, a switch without its value and a word too many: nothing is generated, and the status is two. -/
theorem status?_of_stray_words :
    ["--bogus", "-m", "Widget"].map (fun word => (Arguments.read [word.toList]).toOption) = [none, none, none] ∧
    ["--bogus", "-m", "Widget"].map (fun word => status? (.at []) [word.toList] { tree := .empty }) =
      [some 2, some 2, some 2] := by
  have unknown : status? (.at []) ["--bogus".toList] { tree := .empty } = some 2 :=
    status?_of_wrong (c := .unrecognized ["--bogus".toList]) (.at []) (by decide +kernel) { tree := .empty }
  have bare : status? (.at []) ["-m".toList] { tree := .empty } = some 2 :=
    status?_of_wrong (c := .valueMissing .model) (.at []) (by decide +kernel) { tree := .empty }
  have stray : status? (.at []) ["Widget".toList] { tree := .empty } = some 2 :=
    status?_of_wrong (c := .unrecognized ["Widget".toList]) (.at []) (by decide +kernel) { tree := .empty }
  exact ⟨by decide +kernel, by simp only [List.map_cons, List.map_nil, unknown, bare, stray]⟩

section Trees

theorem Concluded.tree_of_dry (concluded : Concluded a t input r u) (dry : a.dryRun = true) : u = t := by
  have kept {entity permission : Text} {s : Settings} {r : Except Failure Run.Report}
      (run : ((a.generator s).run entity permission (path? a.manifest)).Ends t r u) : u = t := by
    have drily : (a.generator s).dryRun = true := dry
    exact ((Run.ensures_run _ _ _ _ t).of_ends run).tree_of_dry drily
  cases concluded with
  | nameWithoutText => rfl
  | nameMissing => rfl
  | settingsFailed => rfl
  | settingsStopped => rfl
  | reported _ _ run => exact kept run
  | schemaFailed _ _ run _ => exact kept run
  | runStopped _ _ run _ => exact kept run

/-- What ends for the schema, for the settings or for a name ends before anything is written. -/
theorem Concluded.tree_of_status (concluded : Concluded a t input (.ok o) u)
    (status : o.status = 1 ∨ o.status = 3 ∨ o.status = 4) : u = t := by
  cases concluded with
  | nameMissing => rfl
  | settingsFailed => rfl
  | @reported entity permission s report u names settings run =>
    cases success : report.success <;> simp [success, Outcome.status] at status
  | @schemaFailed entity permission s f u names settings run ofSchema =>
    cases ((Run.ensures_run _ _ _ _ t).of_ends run).ending (Arguments.names_ne_nil names) with
    | schema => rfl
    | schemaRefused => rfl
    | numberTooLong => rfl
    | nullInPath => exact absurd ofSchema (by simp [Failure.isOfSchema])
    | undecodable => exact absurd ofSchema (by simp [Failure.isOfSchema])

theorem Arguments.Generates.written {report : Run.Report} (generates : a.Generates t input (.ok report))
    (real : a.dryRun = false) (silent : report.errors = []) :
    report.files.map (·.kind) = Kind.all.map Kind.name ∧ ∀ r ∈ report.files, r.written = true := by
  obtain ⟨entity, permission, s, -, -, result⟩ := generates
  obtain ⟨u, ends⟩ := (Run.ensures_run (a.generator s) entity permission (path? a.manifest) t).resultIn
  rw [result] at ends
  obtain ⟨made, kinds, files⟩ := ends.records silent
  rw [files, ← kinds]
  constructor
  · simp only [Run.Generator.records, List.map_map]
    rfl
  · intro r hr
    obtain ⟨m, -, rfl⟩ := List.mem_map.1 hr
    have written : (a.generator s).dryRun = false := real
    simp [Run.Generator.record, Artifact.FileRecord.ofContent, written]

/-- A command line that is for generating, in any world: the tree stays where the run ends for the schema, for the settings
or for a name, and in every dry run. A real run ends well just when its report has no errors, and then it has written an
artifact of every kind. -/
theorem run_of_read (clock : Log.Clock) {words : List Text} {a : Arguments} (read : Arguments.read words = .ok a)
    (w : World) :
    (∀ n ∈ [1, 3, 4], status? clock words w = some n → (World.run (Program.run clock words) w).2.tree = w.tree) ∧
    (a.dryRun = true → (World.run (Program.run clock words) w).2.tree = w.tree) ∧
    (a.dryRun = false →
      (status? clock words w = some 0 ↔
        ∃ report, a.Generates w.tree w.input (.ok report) ∧ report.errors = []) ∧
      ∀ report, a.Generates w.tree w.input (.ok report) → report.errors = [] →
        report.files.map (·.kind) = Kind.all.map Kind.name ∧ ∀ r ∈ report.files, r.written = true) := by
  have same : Program.run clock words = runWith clock a := by rw [Program.run, read]
  have concluded := concluded_runWith clock a w
  rw [same]
  refine ⟨?_, concluded.tree_of_dry, fun real => ⟨?_, fun report generates => generates.written real⟩⟩
  · intro n hn status
    obtain ⟨o, ended, rfl⟩ := status?_eq_some_iff.1 status
    rw [same] at ended
    rw [ended] at concluded
    exact concluded.tree_of_status (by simpa using hn)
  · simp [status?_of_read read, Outcome.exists_iff, Outcome.status, Arguments.Reaches]

def widgetWords : List Text := ["-m", "Widget", "-p", "Widget", "--templates", "templates"].map String.toList

def widgetArguments : Arguments where
  model := some (.text "Widget".toList)
  permission := some (.text "Widget".toList)
  templates := some (.text "templates".toList)

theorem run_of_read_widget :
    ∃ report, widgetArguments.Generates Run.routedWorld.tree [] (.ok report) ∧ report.errors = [] ∧
      report.files.map (·.kind) = Kind.all.map Kind.name ∧ ∀ r ∈ report.files, r.written = true := by
  have read : Arguments.read widgetWords = .ok widgetArguments := by decide +kernel
  have status : status? (.at []) widgetWords Run.routedWorld = some 0 := by decide +kernel
  obtain ⟨-, -, real⟩ := run_of_read (.at []) read Run.routedWorld
  obtain ⟨report, generates, silent⟩ := (real rfl).1.1 status
  exact ⟨report, generates, silent, (real rfl).2 report generates silent⟩

end Trees

end EntityScaffold.CommandLine
