import EntityScaffold.CommandLine.Program
import EntityScaffold.Proofs.Run.DryRun
import EntityScaffold.Proofs.Run.Endings
import EntityScaffold.Proofs.Run.Records
import EntityScaffold.Proofs.Run.Unattended

/-
How a run of the program ends. What its arguments ask for is said first, by the input for the names and by the tree for
the settings and the report; then every run ends in one of a few ways, with its status and its tree.
-/

namespace EntityScaffold.CommandLine

open Program
open FileTree (Change)

variable {clock : Log.Clock} {words : List Text} {a : Arguments} {t u : FileTree} {input : List Text} {w : World}

section Names

/-- The name on the first line of an input that holds one, and the lines after it. -/
def firstName? : List Text → Option (Text × List Text)
  | [] => none
  | l :: ls =>
    match Prompt.name? l with
    | some n => some (n, ls)
    | none => firstName? ls

/-- The name that a switch gives, or the first one of the input, and what is left of the input. -/
def nameFor (label : Text) (given : Option Value) (input : List Text) :
    Except Failure (Except NameFault (Text × List Text)) :=
  match given with
  | some .nothing => .error .nameWithoutText
  | some (.text name) =>
    match Prompt.name? name with
    | some n => .ok (.ok (n, input))
    | none => .ok (.error (.blank label))
  | none =>
    match firstName? input with
    | some found => .ok (.ok found)
    | none => .ok (.error (.inputEnded label))

/-- The names of the entity and of the permission, in this order. -/
def Arguments.names (a : Arguments) (input : List Text) : Except Failure (Except NameFault (Text × Text)) :=
  match nameFor "Model name".toList a.model input with
  | .error f => .error f
  | .ok (.error fault) => .ok (.error fault)
  | .ok (.ok (entity, rest)) =>
    match nameFor "Permission name".toList a.permission rest with
    | .error f => .error f
    | .ok (.error fault) => .ok (.error fault)
    | .ok (.ok (permission, _)) => .ok (.ok (entity, permission))

theorem name?_ne_nil {answer name : Text} (h : Prompt.name? answer = some name) : name ≠ [] := by
  unfold Prompt.name? at h
  dsimp only at h
  split at h
  · exact absurd h (by simp)
  · next named =>
    rw [← Option.some.inj h]
    exact fun empty => named (List.isEmpty_iff.2 empty)

theorem firstName?_ne_nil {name : Text} {rest : List Text} (h : firstName? input = some (name, rest)) : name ≠ [] := by
  induction input with
  | nil => exact absurd h (by simp [firstName?])
  | cons l ls ih =>
    unfold firstName? at h
    split at h
    · next n hname =>
      obtain ⟨rfl, -⟩ := Prod.mk.inj (Option.some.inj h)
      exact name?_ne_nil hname
    · exact ih h

theorem nameFor_ne_nil {label : Text} {given : Option Value} {name : Text} {rest : List Text}
    (h : nameFor label given input = .ok (.ok (name, rest))) : name ≠ [] := by
  unfold nameFor at h
  split at h
  · exact absurd h (by simp)
  · split at h
    · next n hname =>
      obtain ⟨rfl, -⟩ := Prod.mk.inj (Except.ok.inj (Except.ok.inj h))
      exact name?_ne_nil hname
    · exact absurd h (by simp)
  · split at h
    · next found hfound =>
      obtain rfl := Except.ok.inj (Except.ok.inj h)
      exact firstName?_ne_nil hfound
    · exact absurd h (by simp)

theorem Arguments.names_ne_nil {entity permission : Text} (h : a.names input = .ok (.ok (entity, permission))) :
    entity ≠ [] := by
  unfold Arguments.names at h
  split at h
  · exact absurd h (by simp)
  · exact absurd h (by simp)
  · next first =>
    split at h
    · exact absurd h (by simp)
    · exact absurd h (by simp)
    · obtain ⟨rfl, -⟩ := Prod.mk.inj (Except.ok.inj (Except.ok.inj h))
      exact nameFor_ne_nil first

/-- Asking takes lines of the input up to the first that holds a name, and leaves the tree. -/
theorem askName_eq (w : World) (label : Text) (ls : List Text) :
    (w.askName label ls).1 = (firstName? ls).map Prod.fst ∧ (w.askName label ls).2.tree = w.tree ∧
      ∀ found ∈ firstName? ls, (w.askName label ls).2.input = found.2 := by
  induction ls generalizing w with
  | nil => exact ⟨rfl, rfl, by simp [firstName?]⟩
  | cons l ls ih =>
    unfold World.askName firstName?
    cases Prompt.name? l with
    | some n => exact ⟨rfl, rfl, by simp⟩
    | none => exact ih _

/-- How resolving a name ends in a world: as the switch and the input say, and with the same tree. -/
inductive Resolved (label : Text) (given : Option Value) (w : World) :
    Except Failure (Except NameFault Text) × World → Prop
  | stopped {f : Failure} {w' : World} (name : nameFor label given w.input = .error f) (tree : w'.tree = w.tree) :
      Resolved label given w (.error f, w')
  | faulty {fault : NameFault} {w' : World} (name : nameFor label given w.input = .ok (.error fault))
      (tree : w'.tree = w.tree) : Resolved label given w (.ok (.error fault), w')
  | found {n : Text} {rest : List Text} {w' : World} (name : nameFor label given w.input = .ok (.ok (n, rest)))
      (tree : w'.tree = w.tree) (input : w'.input = rest) : Resolved label given w (.ok (.ok n), w')

theorem resolved (label : Text) (given : Option Value) (w : World) :
    Resolved label given w (World.run (resolveName label given) w) := by
  cases given with
  | none =>
    obtain ⟨answer, tree, rest⟩ := askName_eq w label w.input
    have asked : World.run (resolveName label none) w =
        ((match (firstName? w.input).map Prod.fst with
          | some n => .ok (.ok n)
          | none => .ok (.error (.inputEnded label))), (w.askName label w.input).2) := by
      unfold resolveName
      rw [World.run_ask]
      simp only [World.answer, answer]
      cases (firstName? w.input).map Prod.fst <;> rfl
    rw [asked]
    cases hfound : firstName? w.input with
    | none =>
      have name : nameFor label none w.input = .ok (.error (.inputEnded label)) := by simp only [nameFor, hfound]
      exact .faulty name tree
    | some found =>
      have name : nameFor label none w.input = .ok (.ok found) := by simp only [nameFor, hfound]
      exact .found name tree (rest found hfound)
  | some value =>
    cases value with
    | nothing => exact .stopped rfl rfl
    | text name =>
      unfold resolveName
      dsimp only
      cases given : Prompt.name? name with
      | some n =>
        have name : nameFor label (some (.text name)) w.input = .ok (.ok (n, w.input)) := by simp only [nameFor, given]
        exact .found name rfl rfl
      | none =>
        have name : nameFor label (some (.text name)) w.input = .ok (.error (.blank label)) := by
          simp only [nameFor, given]
        exact .faulty name rfl

end Names

section Settings

theorem asks_loadAndNote (p : Path) : (Settings.loadAndNote p).Asks (Request.Alike t t) := by
  have reading : (Run.readText p).Asks (Request.Alike t t) := (Job.asks_read rfl).bind fun _ => Job.asks_ofExcept _
  have loading : (Settings.loadFile p).Asks (Request.Alike t t) := by
    unfold Settings.loadFile
    refine reading.attempt.bind fun r => ?_
    cases r with
    | ok x => exact Job.asks_ofExcept _
    | error f =>
      dsimp only
      split
      · exact Job.asks_failed _
      · exact Job.asks_failed _
  exact loading.bind fun entries => (Job.asks_note _).bind fun _ => Job.asks_pure entries

theorem asks_resolve (file root : Option Path) (overrides : List (Text × Data.Datum)) :
    (Settings.resolve file root overrides).Asks (Request.Alike t t) := by
  have entries : (Settings.fileEntries file root).Asks (Request.Alike t t) := by
    unfold Settings.fileEntries
    cases file with
    | some p => exact asks_loadAndNote p
    | none =>
      refine (Job.asks_look rfl).bind fun sight => ?_
      cases sight with
      | file => exact asks_loadAndNote _
      | nothing => exact Job.asks_pure _
      | folder => exact Job.asks_pure _
  unfold Settings.resolve
  refine entries.bind fun es => ?_
  dsimp only
  split
  · exact Job.asks_pure _
  · exact Job.asks_failed _

end Settings

namespace Arguments

/-- The settings that some arguments lead to in a tree. -/
def settingsIn (a : Arguments) (t : FileTree) : Except Failure Settings :=
  (Settings.resolve (path? a.settings) (path? a.projectRoot) (overrides a)).resultIn t

def generator (a : Arguments) (s : Settings) : Run.Generator := ⟨s, a.dryRun, none⟩

/-- The generation that some arguments ask for comes to run, and ends with a result. -/
def Generates (a : Arguments) (t : FileTree) (input : List Text) (r : Except Failure Run.Report) : Prop :=
  ∃ entity permission s, a.names input = .ok (.ok (entity, permission)) ∧ a.settingsIn t = .ok s ∧
    ((a.generator s).run entity permission (path? a.manifest)).resultIn t = r

end Arguments

/-- How a run of the program ends whose arguments are read. -/
inductive Concluded (a : Arguments) (t : FileTree) (input : List Text) : Except Failure Outcome → FileTree → Prop
  | nameWithoutText {f : Failure} (names : a.names input = .error f) : Concluded a t input (.error f) t
  | nameMissing {fault : NameFault} (names : a.names input = .ok (.error fault)) :
      Concluded a t input (.ok .nameMissing) t
  | settingsFailed {entity permission : Text} {f : Failure} (names : a.names input = .ok (.ok (entity, permission)))
      (settings : a.settingsIn t = .error f) (ofSettings : f.isOfSettings = true) :
      Concluded a t input (.ok .settingsFailed) t
  | settingsStopped {entity permission : Text} {f : Failure} (names : a.names input = .ok (.ok (entity, permission)))
      (settings : a.settingsIn t = .error f) (other : ¬ f.isOfSettings = true) : Concluded a t input (.error f) t
  | reported {entity permission : Text} {s : Settings} {report : Run.Report} {u : FileTree}
      (names : a.names input = .ok (.ok (entity, permission))) (settings : a.settingsIn t = .ok s)
      (run : ((a.generator s).run entity permission (path? a.manifest)).Ends t (.ok report) u) :
      Concluded a t input (.ok (if report.success then .generated else .generationFailed)) u
  | schemaFailed {entity permission : Text} {s : Settings} {f : Failure} {u : FileTree}
      (names : a.names input = .ok (.ok (entity, permission))) (settings : a.settingsIn t = .ok s)
      (run : ((a.generator s).run entity permission (path? a.manifest)).Ends t (.error f) u)
      (ofSchema : f.isOfSchema = true) : Concluded a t input (.ok .schemaFailed) u
  | runStopped {entity permission : Text} {s : Settings} {f : Failure} {u : FileTree}
      (names : a.names input = .ok (.ok (entity, permission))) (settings : a.settingsIn t = .ok s)
      (run : ((a.generator s).run entity permission (path? a.manifest)).Ends t (.error f) u)
      (other : ¬ f.isOfSchema = true) : Concluded a t input (.error f) u

section Ensures

variable {entity permission : Text}

theorem ensures_generateWith {s : Settings} (names : a.names input = .ok (.ok (entity, permission)))
    (settings : a.settingsIn t = .ok s) :
    (generateWith clock a entity permission s).Ensures t (Concluded a t input) := by
  unfold generateWith Run.Generator.start
  split
  -- The dry run is noted first; from there on both are the same job.
  on_goal 1 => refine Job.ensures_note ?_
  all_goals
    refine Job.ensures_note ?_
    refine (Job.ensures_ends t _).attempt fun r u run => ?_
    cases r with
    | ok report => exact Job.ensures_print (Job.ensures_pure (.reported names settings run))
    | error f =>
      dsimp only
      split
      · next ofSchema =>
        refine Job.ensures_note (Job.ensures_print (Job.ensures_pure ?_))
        exact .schemaFailed names settings run ofSchema
      · next other => exact Job.ensures_failed (.runStopped names settings run other)

theorem ensures_generate (names : a.names input = .ok (.ok (entity, permission))) :
    (generate clock a entity permission).Ensures t (Concluded a t input) := by
  have resolved : (Settings.resolve (path? a.settings) (path? a.projectRoot) (overrides a)).Asks (Request.Alike t t) :=
    asks_resolve _ _ _
  unfold generate
  refine resolved.ensures.attempt ?_
  rintro r u ⟨settings, rfl⟩
  cases r with
  | ok s => exact ensures_generateWith names settings.symm
  | error f =>
    dsimp only
    split
    · next ofSettings => exact Job.ensures_note (Job.ensures_pure (.settingsFailed names settings.symm ofSettings))
    · next other => exact Job.ensures_failed (.settingsStopped names settings.symm other)

theorem ensures_runNamed (names : a.names input = .ok (.ok (entity, permission))) :
    (runNamed clock a entity permission).Ensures t (Concluded a t input) := by
  unfold runNamed
  refine Job.ensures_notes _ ((ensures_generate names).bind ?_ fun f u concluded => concluded)
  intro o u concluded
  exact Job.ensures_note (Job.ensures_pure concluded)

theorem ensures_refuseName {fault : NameFault} (names : a.names input = .ok (.error fault)) :
    (refuseName fault).Ensures t (Concluded a t input) := by
  cases fault with
  | blank label => exact Job.ensures_note (Job.ensures_print (Job.ensures_pure (.nameMissing names)))
  | inputEnded label => exact Job.ensures_note (Job.ensures_pure (.nameMissing names))

end Ensures

/-- The ways in which a run ends whose arguments are read. -/
theorem concluded_runWith (clock : Log.Clock) (a : Arguments) (w : World) :
    Concluded a w.tree w.input (World.run (runWith clock a) w).1 (World.run (runWith clock a) w).2.tree := by
  unfold runWith
  change Concluded a w.tree w.input (World.run (Job.bind _ _) w).1 (World.run (Job.bind _ _) w).2.tree
  rw [World.run_bind]
  have first := resolved "Model name".toList a.model w
  generalize World.run (resolveName "Model name".toList a.model) w = end_ at first
  cases first with
  | @stopped f w₁ name tree =>
    dsimp only
    rw [tree]
    exact .nameWithoutText (by simp only [Arguments.names, name])
  | @faulty fault w₁ name tree =>
    exact ensures_refuseName (by simp only [Arguments.names, name]) w₁ tree
  | @found entity rest w₁ name tree input =>
    dsimp only
    change Concluded a w.tree w.input (World.run (Job.bind _ _) w₁).1 (World.run (Job.bind _ _) w₁).2.tree
    rw [World.run_bind]
    have second := resolved "Permission name".toList a.permission w₁
    rw [← tree]
    generalize World.run (resolveName "Permission name".toList a.permission) w₁ = end_ at second
    cases second with
    | stopped name' tree' =>
      rw [input] at name'
      dsimp only
      rw [tree']
      exact .nameWithoutText (by simp only [Arguments.names, name, name'])
    | faulty name' tree' =>
      rw [input] at name'
      exact ensures_refuseName (by simp only [Arguments.names, name, name']) _ tree'
    | @found permission _ w₂ name' tree' _ =>
      rw [input] at name'
      have names : a.names w.input = .ok (.ok (entity, permission)) := by simp only [Arguments.names, name, name']
      exact ensures_runNamed names w₂ tree'

end EntityScaffold.CommandLine
