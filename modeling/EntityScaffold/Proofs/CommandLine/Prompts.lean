import EntityScaffold.Proofs.CommandLine.Status
import EntityScaffold.Proofs.Text.Blank
import EntityScaffold.Proofs.Text.Lines

/-
Names that are asked for and names that are given on the command line. Switches with names in front of a command line only
fill in the names that it leaves open, and the answers to two prompts are two such names; from there on both runs are one job,
which asks nobody.
-/

namespace EntityScaffold.CommandLine

open Program
open Text (IsGap)

variable {clock : Log.Clock} {words : List Text} {a r : Arguments} {w : World} {x y : Value} {label : Text}

/-- A name as it is typed or given: one line, not blank, and not taken for a switch. Blanks may stand around it. -/
structure GivenName where
  text : Text
  shown : ¬ IsGap text
  oneLine : '\n' ∉ text
  noSwitch : text.head? ≠ some '-'

structure BlankLine where
  text : Text
  blank : IsGap text
  oneLine : '\n' ∉ text

section Arguments

namespace Arguments

/-- The arguments with names where none are given. -/
def withNames (x y : Value) (a : Arguments) : Arguments :=
  { a with model := a.model.or (some x), permission := a.permission.or (some y) }

theorem withNames_of_none (model : a.model = none) (permission : a.permission = none) (x y : Value) :
    a.withNames x y = { a with model := some x, permission := some y } := by
  simp [withNames, model, permission]

theorem take_withNames (a : Arguments) (given : Switch × Value) :
    (a.withNames x y).take given = (a.take given).map (withNames x y) := by
  obtain ⟨s, v⟩ := given
  cases s <;> simp [take, withNames, Except.map]

theorem takeAll_withNames (a : Arguments) (given : List (Switch × Value)) :
    (a.withNames x y).takeAll given = (a.takeAll given).map (withNames x y) := by
  induction given generalizing a with
  | nil => rfl
  | cons g gs ih =>
    rw [takeAll, takeAll, take_withNames]
    cases a.take g with
    | error stop => rfl
    | ok b => exact ih b

theorem ofWords_valued {s : Switch} (takes : s.takesValue = true) (a : Arguments) (strangers : List Text) (t : Text)
    (isLong : Bool) (value : Text) (ws : List (Text × Word)) :
    ofWords a strangers ((t, .switch s isLong none) :: (value, .operand) :: ws) =
      (a.take (s, .text value)).bind fun a => ofWords a strangers ws := by
  have open_ : clusterOf s isLong none = .ok { taken := [], awaiting := some s } := by
    simp [clusterOf, Cluster.single, takes]
  rw [ofWords, open_]
  change (takeAll a [(s, .text value)]).bind _ = _
  rw [takeAll]
  cases a.take (s, .text value) <;> rfl

/-- Names that fill in for missing ones play no part in how the words after them are read. -/
theorem ofWords_withNames (a : Arguments) (strangers : List Text) (ws : List (Text × Word)) :
    ofWords (a.withNames x y) strangers ws = (ofWords a strangers ws).map fun r => (r.1.withNames x y, r.2) := by
  match ws with
  | [] => rfl
  | (t, .operand) :: rest => exact ofWords_withNames a (strangers ++ [t]) rest
  | (t, .mark) :: rest => exact ofWords_withNames a (strangers ++ [t]) rest
  | (t, .stranger) :: rest => exact ofWords_withNames a (strangers ++ [t]) rest
  | (t, .switch s isLong attached) :: rest =>
    have taken (given : List (Switch × Value)) (rest : List (Text × Word))
        (ih : ∀ b, ofWords (b.withNames x y) strangers rest =
          (ofWords b strangers rest).map fun r => (r.1.withNames x y, r.2)) :
        ((a.withNames x y).takeAll given).bind (fun b => ofWords b strangers rest) =
          ((a.takeAll given).bind fun b => ofWords b strangers rest).map fun r => (r.1.withNames x y, r.2) := by
      rw [takeAll_withNames]
      cases a.takeAll given with
      | error stop => rfl
      | ok b => exact ih b
    rw [ofWords, ofWords]
    cases orWrong (clusterOf s isLong attached) with
    | error stop => rfl
    | ok c =>
      obtain ⟨given, awaiting⟩ := c
      cases awaiting with
      | none => exact taken given rest fun b => ofWords_withNames b strangers rest
      | some last =>
        match rest with
        | [] => rfl
        | (value, .operand) :: rest =>
          exact taken (given ++ [(last, .text value)]) rest fun b => ofWords_withNames b strangers rest
        | (value, .mark) :: rest => rfl
        | (value, .stranger) :: rest => rfl
        | (value, .switch _ _ _) :: rest => rfl

end Arguments

theorem Word.readAll_cons {t : Text} {word : Word} (read : Word.read t = .ok word) (ending : t ≠ "--".toList)
    (words : List Text) : Word.readAll (t :: words) = (Word.readAll words).map ((t, word) :: ·) := by
  rw [Word.readAll, if_neg ending, read]
  cases Word.readAll words with
  | error c => rfl
  | ok ws => rfl

theorem GivenName.read (n : GivenName) : Word.read n.text = .ok .operand := by
  rw [Word.read, if_pos n.noSwitch]

theorem GivenName.ne_ending (n : GivenName) : n.text ≠ "--".toList := fun h => n.noSwitch (by rw [h]; rfl)

def namedWords (model permission : GivenName) : List Text := ["-m".toList, model.text, "-p".toList, permission.text]

theorem read_namedWords (model permission : GivenName) (words : List Text) :
    Arguments.read (namedWords model permission ++ words) =
      (Arguments.read words).map (Arguments.withNames (.text model.text) (.text permission.text)) := by
  have first : Word.read "-m".toList = .ok (.switch .model false none) := by decide
  have second : Word.read "-p".toList = .ok (.switch .permission false none) := by decide
  have all : Word.readAll (namedWords model permission ++ words) = (Word.readAll words).map fun ws =>
      ("-m".toList, .switch .model false none) :: (model.text, .operand) ::
        ("-p".toList, .switch .permission false none) :: (permission.text, .operand) :: ws := by
    simp only [namedWords, List.cons_append, List.nil_append]
    rw [Word.readAll_cons first (by decide), Word.readAll_cons model.read model.ne_ending,
      Word.readAll_cons second (by decide), Word.readAll_cons permission.read permission.ne_ending]
    cases Word.readAll words <;> rfl
  rw [Arguments.read, Arguments.read, all]
  cases Word.readAll words with
  | error c => rfl
  | ok ws =>
    have taken : Arguments.ofWords {} [] (("-m".toList, .switch .model false none) :: (model.text, .operand) ::
        ("-p".toList, .switch .permission false none) :: (permission.text, .operand) :: ws) =
        Arguments.ofWords (Arguments.withNames (.text model.text) (.text permission.text) {}) [] ws := by
      rw [Arguments.ofWords_valued rfl]
      change Arguments.ofWords { model := some (.text model.text) } [] _ = _
      rw [Arguments.ofWords_valued rfl]
      rfl
    simp only [Except.map, Arguments.orWrong, Except.bind, taken, Arguments.ofWords_withNames]
    cases Arguments.ofWords {} [] ws with
    | error stop => rfl
    | ok r =>
      obtain ⟨a, strangers⟩ := r
      cases strangers <;> rfl

end Arguments

section Answers

theorem name?_of_blank {t : Text} (h : IsGap t) : Prompt.name? t = none := by
  rw [Prompt.name?, Text.strip_eq_nil_iff.2 h]
  rfl

theorem GivenName.name?_eq (n : GivenName) : Prompt.name? n.text = some (Text.strip n.text) := by
  have shown : Text.strip n.text ≠ [] := mt Text.strip_eq_nil_iff.1 n.shown
  rw [Prompt.name?, if_neg (by simpa using shown)]

/-- What is said when a name is asked for and so many blank lines come first. -/
def asking (label : Text) (blanks : Nat) : List Said :=
  (List.replicate blanks [.shown .output (Prompt.question label),
    .shown .errors (Prompt.complaint label ++ ['\n'])]).flatten ++ [.shown .output (Prompt.question label)]

theorem askName_of_blanks (w : World) (label : Text) (blanks : List BlankLine) (n : GivenName) (rest : List Text) :
    w.askName label (blanks.map BlankLine.text ++ n.text :: rest) =
      (some (Text.strip n.text), { w with input := rest, said := w.said ++ asking label blanks.length }) := by
  induction blanks generalizing w with
  | nil =>
    rw [List.map_nil, List.nil_append, World.askName, n.name?_eq]
    rfl
  | cons b bs ih =>
    rw [List.map_cons, List.cons_append, World.askName, name?_of_blank b.blank]
    dsimp only
    rw [ih]
    simp [World.say, asking, List.replicate_succ]

theorem run_resolveName_asked {w : World} {blanks : List BlankLine} {n : GivenName} {rest : List Text}
    (input : w.input = blanks.map BlankLine.text ++ n.text :: rest) (label : Text) :
    World.run (resolveName label none) w =
      (.ok (.ok (Text.strip n.text)), { w with input := rest, said := w.said ++ asking label blanks.length }) := by
  unfold resolveName
  rw [World.run_ask, World.answer, input, askName_of_blanks]
  rfl

theorem run_resolveName_given (n : GivenName) (label : Text) (w : World) :
    World.run (resolveName label (some (.text n.text))) w = (.ok (.ok (Text.strip n.text)), w) := by
  unfold resolveName
  dsimp only
  rw [n.name?_eq]
  rfl

end Answers

section Runs

theorem unattended_runNamed (clock : Log.Clock) (a : Arguments) (entity permission : Text) :
    (runNamed clock a entity permission).Unattended := by
  have started (s : Settings) : (Run.Generator.start s a.dryRun none).Unattended :=
    (Job.unattended_note _).bind fun _ => Job.asks_pure _
  have reported (s : Settings) : (generateWith clock a entity permission s).Unattended := by
    unfold generateWith
    split
    on_goal 1 => refine (Job.unattended_note _).bind fun _ => ?_
    all_goals
      refine (started s).bind fun g => (Run.unattended_run g _ _ _).attempt.bind fun r => ?_
      cases r with
      | ok report => exact ⟨trivial, fun _ => Job.asks_pure _⟩
      | error f =>
        dsimp only
        split
        · exact ⟨trivial, fun _ => ⟨trivial, fun _ => Job.asks_pure _⟩⟩
        · exact Job.asks_failed f
  have generated : (generate clock a entity permission).Unattended := by
    unfold generate
    have resolved : (Settings.resolve (path? a.settings) (path? a.projectRoot) (overrides a)).Asks
        (Request.Alike .empty .empty) := asks_resolve _ _ _
    refine resolved.unattended.attempt.bind fun r => ?_
    cases r with
    | ok s => exact reported s
    | error f =>
      dsimp only
      split
      · exact ⟨trivial, fun _ => Job.asks_pure _⟩
      · exact Job.asks_failed f
  unfold runNamed
  exact (Job.unattended_notes _).bind fun _ => generated.bind fun o => ⟨trivial, fun _ => Job.asks_pure o⟩

/-- An input that answers both prompts: blank lines, a name, blank lines, a name, and the rest. -/
structure Answers where
  before : List BlankLine
  model : GivenName
  between : List BlankLine
  permission : GivenName
  after : List Text
  lines : ∀ l ∈ after, '\n' ∉ l

namespace Answers

def leading (s : Answers) : List Text :=
  s.before.map BlankLine.text ++ s.model.text :: s.between.map BlankLine.text

/-- The text of the input; its last line may end or not. -/
def input (s : Answers) : Text := Text.between s.leading s.permission.text s.after

/-- The prompts that such an input answers, one for each line up to the second name. -/
def prompts (s : Answers) : Text :=
  (List.replicate (s.before.length + 1) (Prompt.question "Model name".toList)).flatten ++
    (List.replicate (s.between.length + 1) (Prompt.question "Permission name".toList)).flatten

theorem lines_input (s : Answers) : Text.lines s.input = s.leading ++ s.permission.text :: s.after := by
  refine Text.lines_between ?_ s.permission.oneLine s.lines
  intro l hl
  rcases List.mem_append.1 hl with hl | hl
  · obtain ⟨b, -, rfl⟩ := List.mem_map.1 hl
    exact b.oneLine
  · rcases List.mem_cons.1 hl with rfl | hl
    · exact s.model.oneLine
    · obtain ⟨b, -, rfl⟩ := List.mem_map.1 hl
      exact b.oneLine

theorem exists_input_eq (s : Answers) (t : FileTree) :
    ∃ rest, (World.ofInput t s.input).input = s.leading ++ s.permission.text :: rest := by
  have shown : s.permission.text ≠ [] := fun h => s.permission.shown (by simp [h, IsGap])
  have lines := s.lines_input
  simp only [Text.lines] at lines
  simp only [World.ofInput, lines]
  rcases List.eq_nil_or_concat s.after with none_ | ⟨ls, l, more⟩
  · refine ⟨[], ?_⟩
    rw [none_, List.reverse_append]
    obtain ⟨c, r, name⟩ := List.exists_cons_of_ne_nil shown
    simp [name]
  · rw [more]
    cases l with
    | nil => exact ⟨ls, by simp⟩
    | cons c r => exact ⟨ls ++ [c :: r], by simp⟩

end Answers

theorem run_runWith {w₁ w₂ : World} {entity permission : Text}
    (first : World.run (resolveName "Model name".toList a.model) w = (.ok (.ok entity), w₁))
    (second : World.run (resolveName "Permission name".toList a.permission) w₁ = (.ok (.ok permission), w₂)) :
    World.run (runWith clock a) w = World.run (runNamed clock a entity permission) w₂ := by
  unfold runWith
  rw [Run.run_bind_ok first]
  dsimp only
  rw [Run.run_bind_ok second]

theorem run_asked (clock : Log.Clock) (noModel : a.model = none) (noPermission : a.permission = none) (s : Answers)
    (t : FileTree) :
    ∃ w, World.run (runWith clock a) (World.ofInput t s.input) =
        World.run (runNamed clock a (Text.strip s.model.text) (Text.strip s.permission.text)) w ∧
      w.tree = t ∧ w.said = asking "Model name".toList s.before.length ++
        asking "Permission name".toList s.between.length := by
  obtain ⟨rest, input⟩ := s.exists_input_eq t
  rw [Answers.leading, List.append_assoc, List.cons_append] at input
  have first := run_resolveName_asked input "Model name".toList
  have second := run_resolveName_asked (w := { World.ofInput t s.input with
    input := s.between.map BlankLine.text ++ s.permission.text :: rest
    said := asking "Model name".toList s.before.length }) rfl "Permission name".toList
  exact ⟨_, run_runWith (noModel ▸ first) (noPermission ▸ second), rfl, rfl⟩

theorem run_told (clock : Log.Clock) (noModel : a.model = none) (noPermission : a.permission = none) (m p : GivenName)
    (w : World) :
    World.run (runWith clock (a.withNames (.text m.text) (.text p.text))) w =
      World.run (runNamed clock a (Text.strip m.text) (Text.strip p.text)) w := by
  rw [Arguments.withNames_of_none noModel noPermission]
  exact run_runWith (run_resolveName_given m "Model name".toList w) (run_resolveName_given p "Permission name".toList w)

theorem shown_output {w w' : World} {more : List Said} (said : w'.said = w.said ++ more)
    (threshold threshold' : Option Log.Severity) : w'.shown clock threshold .output =
      w.shown clock threshold' .output ++ World.shown clock threshold' .output { tree := .empty, said := more } := by
  simp [World.shown, said]

theorem shown_asking (label : Text) (blanks : Nat) (threshold : Option Log.Severity) :
    World.shown clock threshold .output { tree := .empty, said := asking label blanks } =
      (List.replicate (blanks + 1) (Prompt.question label)).flatten := by
  induction blanks with
  | zero => simp [World.shown, asking]
  | succ n ih =>
    rw [List.replicate_succ, List.flatten_cons, ← ih]
    simp [World.shown, asking, List.replicate_succ]

/-- A command line that leaves both names open, run on an input that gives them after blank lines, ends as it does with the names
in front of it: with the same result, tree and status, and with the same output after the prompts. A command line that asks for help or
for the version shows it in both, and no prompt. -/
theorem run_of_answers (clock : Log.Clock) {words : List Text} (accepted : ∀ c, Arguments.read words ≠ .error (.wrong c))
    (unnamed : ∀ a, Arguments.read words = .ok a → a.model = none ∧ a.permission = none) (t : FileTree) (s : Answers)
    (other : Text) :
    let given := namedWords s.model s.permission ++ words
    let asked := World.run (Program.run clock words) (World.ofInput t s.input)
    let told := World.run (Program.run clock given) (World.ofInput t other)
    asked.1 = told.1 ∧ asked.2.tree = told.2.tree ∧
      status? clock words (World.ofInput t s.input) = status? clock given (World.ofInput t other) ∧
      asked.2.shown clock (threshold words) .output =
        (if (Arguments.read words).isOk then s.prompts else []) ++ told.2.shown clock (threshold given) .output := by
  intro given asked told
  have ended (result : asked.1 = told.1) :
      status? clock words (World.ofInput t s.input) = status? clock given (World.ofInput t other) :=
    congrArg (fun r : Except Failure Outcome => r.toOption.map Outcome.status) result
  have read : Arguments.read given = (Arguments.read words).map
      (Arguments.withNames (.text s.model.text) (.text s.permission.text)) := read_namedWords _ _ _
  cases hread : Arguments.read words with
  | error stop =>
    rw [hread] at read
    have same : asked.1 = told.1 ∧ asked.2.tree = told.2.tree ∧ asked.2.said = told.2.said := by
      simp only [asked, told, Program.run, hread, read, Except.map]
      cases stop with
      | help => exact ⟨rfl, rfl, rfl⟩
      | version => exact ⟨rfl, rfl, rfl⟩
      | wrong c => exact absurd hread (accepted c)
    obtain ⟨result, tree, said⟩ := same
    refine ⟨result, tree, ended result, ?_⟩
    simp [Except.isOk, Except.toBool, World.shown, said]
  | ok a =>
    rw [hread] at read
    obtain ⟨noModel, noPermission⟩ := unnamed a hread
    obtain ⟨w, run, tree, said⟩ := run_asked clock noModel noPermission s t
    have asked_eq : asked = World.run (runNamed clock a (Text.strip s.model.text) (Text.strip s.permission.text)) w := by
      rw [← run]
      simp only [asked, Program.run, hread]
    have told_eq : told = World.run (runNamed clock a (Text.strip s.model.text) (Text.strip s.permission.text))
        (World.ofInput t other) := by
      rw [← run_told clock noModel noPermission]
      simp only [told, Program.run, read, Except.map]
    have start : w.tree = (World.ofInput t other).tree := tree
    obtain ⟨result, last, more, saidAsked, saidTold⟩ :=
      (unattended_runNamed clock a (Text.strip s.model.text) (Text.strip s.permission.text)).run_alike start
    rw [← asked_eq] at result last saidAsked
    rw [← told_eq] at result last saidTold
    refine ⟨result, last, ended result, ?_⟩
    have prompts : w.shown clock (threshold given) .output = s.prompts := by
      rw [shown_output (w := { tree := .empty, said := asking "Model name".toList s.before.length }) said _
        (threshold given), shown_asking, shown_asking, Answers.prompts]
    have nothing : (World.ofInput t other).shown clock (threshold given) .output = [] := rfl
    rw [shown_output saidAsked _ (threshold given), shown_output saidTold _ (threshold given), prompts, nothing]
    simp [Except.isOk, Except.toBool]

/-- A command line without names, and an input with blank lines before and between them. -/
def unnamedWords : List Text := ["--dry-run", "--templates", "templates"].map String.toList

def widgetAnswers : Answers where
  before := [⟨" ".toList, by decide, by decide⟩]
  model := ⟨"Widget".toList, by decide, by decide, by decide⟩
  between := [⟨"  ".toList, by decide, by decide⟩, ⟨"\t ".toList, by decide, by decide⟩]
  permission := ⟨" Admin ".toList, by decide, by decide, by decide⟩
  after := ["more".toList]
  lines := by decide

theorem run_of_answers_widget :
    (Arguments.read unnamedWords = .ok { templates := some (.text "templates".toList), dryRun := true }) ∧
    (let given := namedWords widgetAnswers.model widgetAnswers.permission ++ unnamedWords
      let asked := World.run (Program.run (.at []) unnamedWords) (World.ofInput Run.routedWorld.tree widgetAnswers.input)
      let told := World.run (Program.run (.at []) given) (World.ofInput Run.routedWorld.tree [])
      asked.1 = told.1 ∧ asked.2.tree = told.2.tree ∧
        asked.2.shown (.at []) (threshold unnamedWords) .output =
          "Model name: Model name: Permission name: Permission name: Permission name: ".toList ++
            told.2.shown (.at []) (threshold given) .output) := by
  have read : Arguments.read unnamedWords = .ok { templates := some (.text "templates".toList), dryRun := true } := by
    decide +kernel
  have prompts : (if (Arguments.read unnamedWords).isOk then widgetAnswers.prompts else []) =
      "Model name: Model name: Permission name: Permission name: Permission name: ".toList := by
    rw [read]
    decide +kernel
  have accepted (c : Complaint) : Arguments.read unnamedWords ≠ .error (.wrong c) := by simp [read]
  have unnamed (a : Arguments) (h : Arguments.read unnamedWords = .ok a) : a.model = none ∧ a.permission = none := by
    rw [read] at h
    obtain rfl := Except.ok.inj h
    exact ⟨rfl, rfl⟩
  obtain ⟨result, tree, -, output⟩ :=
    run_of_answers (.at []) accepted unnamed Run.routedWorld.tree widgetAnswers []
  rw [prompts] at output
  exact ⟨read, result, tree, output⟩

end Runs

end EntityScaffold.CommandLine
