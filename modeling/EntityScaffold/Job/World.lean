import EntityScaffold.Job.Basic
import EntityScaffold.Prompt

/-
Running a job in a world of its own: a tree of files, an input, and all that was said. Time stands still there.
-/

namespace EntityScaffold

/-- What was said: an entry of the log, or text shown on a stream. -/
inductive Said where
  | entry (e : Log.Entry)
  | shown (stream : Stream) (t : Text)
  deriving DecidableEq, Repr

/-- A world: its tree, the lines of input that are left, and what was said so far. -/
structure World where
  tree : FileTree
  input : List Text := []
  said : List Said := []

namespace World

def ofInput (tree : FileTree) (input : Text) : World where
  tree := tree
  input := match (Text.splitAt '\n' input).reverse with
    | [] :: ls => ls.reverse
    | _ => Text.splitAt '\n' input

/-- The world after a change of its tree that may be refused. -/
def change (w : World) : Except FileTree.Refusal FileTree → Except FileTree.Refusal Unit × World
  | .ok tree => (.ok (), { w with tree := tree })
  | .error r => (.error r, w)

def say (w : World) (s : Said) : World := { w with said := w.said ++ [s] }

/-- Asks for a name: lines of the input are taken up to the first that gives one. -/
def askName (w : World) (label : Text) : List Text → Option Text × World
  | [] => (none, { w.say (.shown .output (Prompt.question label)) with input := [] })
  | l :: ls =>
    let asked := w.say (.shown .output (Prompt.question label))
    match Prompt.name? l with
    | some n => (some n, { asked with input := ls })
    | none => (asked.say (.shown .errors (Prompt.complaint label ++ ['\n']))).askName label ls

def answer (w : World) : (r : Request) → r.Answer × World
  | .look p => (w.tree.look p, w)
  | .read p => (w.tree.read p, w)
  | .makeFolder p => w.change (w.tree.makeFolder p)
  | .write p content => w.change (w.tree.write p content)
  | .temporary p =>
    match w.tree.makeTemporary p with
    | .ok (place, tree) => (.ok place, { w with tree := tree })
    | .error r => (.error r, w)
  | .fill place content => ((), { w with tree := w.tree.fill place content })
  | .move place p => w.change (w.tree.move place p)
  | .discard place => ((), { w with tree := w.tree.discard place })
  | .time => ((0 : Nat), w)
  | .note e => ((), w.say (.entry e))
  | .print stream t => ((), w.say (.shown stream t))
  | .name label => w.askName label w.input

/-- Runs a job: its result or failure, and the world it leaves. -/
def run {α : Type} : Job α → World → Except Failure α × World
  | .done a, w => (.ok a, w)
  | .failed f, w => (.error f, w)
  | .ask r next, w => run (next (w.answer r).1) (w.answer r).2

@[simp] theorem run_done {α : Type} (a : α) (w : World) : run (.done a) w = (.ok a, w) := rfl

@[simp] theorem run_failed {α : Type} (f : Failure) (w : World) :
    run (.failed f : Job α) w = (.error f, w) := rfl

theorem run_ask {α : Type} (r : Request) (next : r.Answer → Job α) (w : World) :
    run (.ask r next) w = run (next (w.answer r).1) (w.answer r).2 := rfl

/-- A job that follows another runs in the world that the other left. -/
theorem run_bind {α β : Type} (j : Job α) (k : α → Job β) (w : World) :
    run (j.bind k) w = match run j w with
      | (.ok a, w') => run (k a) w'
      | (.error f, w') => (.error f, w') := by
  induction j generalizing w with
  | done a => rfl
  | failed f => rfl
  | ask r next ih => exact ih _ _

theorem run_attempt {α : Type} (j : Job α) (w : World) :
    run j.attempt w = (.ok (run j w).1, (run j w).2) := by
  induction j generalizing w with
  | done a => rfl
  | failed f => rfl
  | ask r next ih => exact ih _ _

def entries (w : World) : List Log.Entry :=
  w.said.filterMap fun
    | .entry e => some e
    | .shown _ _ => none

/-- All text on a stream. Entries of the log that reach the threshold stand among the errors, one a line. -/
def shown (clock : Log.Clock) (threshold : Option Log.Severity) (stream : Stream) (w : World) : Text :=
  w.said.flatMap fun
    | .entry e => if stream = .errors && e.isShown threshold then e.line clock ++ ['\n'] else []
    | .shown s t => if s = stream then t else []

end World

end EntityScaffold
