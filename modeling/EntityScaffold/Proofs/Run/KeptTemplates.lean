import EntityScaffold.Proofs.Run.Templates

/-
What an engine gives of its templates while the tree around it changes. For each kind, calls fail as long as the tree shows no
template, and leave the engine as it was; from the first call that finds one on, all are given the text that it found. Calls for
other kinds do not matter.
-/

namespace EntityScaffold.Run

open Artifact (Kind)
open Template (substitute)

variable {k : Kind} {folder : Option Path} {x : Text} {f : Failure}

/-- A call of an engine: for the template of a kind as it is, or filled from a context. -/
inductive Call where
  | load (k : Kind)
  | render (k : Kind) (context : Template.Context)

namespace Call

def kind : Call → Kind
  | load k => k
  | render k _ => k

def shape (x : Text) : Call → Text
  | load _ => x
  | render _ context => substitute x context

def job (e : Engine) : Call → Job (Text × Engine)
  | load k => e.load k
  | render k context => e.render k context

theorem ensures_job (c : Call) (e : Engine) (t : FileTree) :
    (c.job e).Ensures t fun r u => r = (e.template t c.kind).map (fun x => (c.shape x, e.keep c.kind x)) ∧ u = t := by
  cases c with
  | load k => exact ensures_load e k t
  | render k context => exact ensures_render e k context t

end Call

/-- An engine in use, and the world around it. -/
structure Use where
  engine : Engine
  world : World

/-- A call that was made: what was in use before it, what was answered, and what is in use after it. -/
structure Reply where
  call : Call
  before : Use
  answer : Except Failure Text
  after : Use

/-- What happens while an engine is in use: the tree becomes another one, or the engine is called. -/
inductive Event where
  | change (t : FileTree)
  | call (c : Call)

/-- Whether an event is no call for another kind than the given one. -/
def Event.concerns (k : Kind) : Event → Bool
  | change _ => true
  | call c => c.kind = k

namespace Use

def tree (s : Use) : FileTree := s.world.tree

def withTree (s : Use) (t : FileTree) : Use := { s with world := { s.world with tree := t } }

/-- What a call is answered. A call that fails gives no engine back, and the one that was called is used on. -/
def reply (s : Use) (c : Call) : Reply :=
  match World.run (c.job s.engine) s.world with
  | (.ok (x, e), w) => ⟨c, s, .ok x, ⟨e, w⟩⟩
  | (.error f, w) => ⟨c, s, .error f, ⟨s.engine, w⟩⟩

def replies (s : Use) : List Event → List Reply
  | [] => []
  | .change t :: h => (s.withTree t).replies h
  | .call c :: h => s.reply c :: (s.reply c).after.replies h

def repliesFor (k : Kind) (s : Use) (h : List Event) : List Reply := (s.replies h).filter fun r => r.call.kind = k

def kept (s : Use) (k : Kind) : Option Text := Entries.get? k s.engine.templates

def template (s : Use) (k : Kind) : Except Failure Text := s.engine.template s.tree k

theorem template_of_kept {s : Use} (known : s.kept k = some x) : s.template k = .ok x :=
  Engine.template_of_known known

theorem template_of_fresh {s : Use} (fresh : s.kept k = none) :
    s.template k = templateIn s.engine.folder s.tree k :=
  Engine.template_of_fresh fresh

end Use

variable {s s' : Use} {c : Call}

/-- How a call ends: its kind's template is found and kept, or there is none and the engine stays as it was. -/
inductive Replied (s : Use) (c : Call) : Reply → Prop
  | given {x : Text} {w : World} (found : s.template c.kind = .ok x) (tree : w.tree = s.tree) :
      Replied s c ⟨c, s, .ok (c.shape x), ⟨s.engine.keep c.kind x, w⟩⟩
  | failed {f : Failure} {w : World} (missed : s.template c.kind = .error f) (tree : w.tree = s.tree) :
      Replied s c ⟨c, s, .error f, ⟨s.engine, w⟩⟩

theorem replied (s : Use) (c : Call) : Replied s c (s.reply c) := by
  obtain ⟨result, tree⟩ := c.ensures_job s.engine s.tree s.world rfl
  unfold Use.reply
  generalize World.run (c.job s.engine) s.world = ended at result tree
  obtain ⟨r, w⟩ := ended
  change r = (s.template c.kind).map _ at result
  cases found : s.template c.kind with
  | ok x =>
    obtain rfl : r = .ok (c.shape x, s.engine.keep c.kind x) := by rw [result, found]; rfl
    exact .given found tree
  | error f =>
    obtain rfl : r = .error f := by rw [result, found]; rfl
    exact .failed found tree

namespace Replied

variable {r : Reply}

theorem call_eq (h : Replied s c r) : r.call = c := by cases h <;> rfl

theorem before_eq (h : Replied s c r) : r.before = s := by cases h <;> rfl

theorem answer (h : Replied s c r) : r.answer = (s.template c.kind).map c.shape := by
  cases h with
  | given found _ => rw [found]; rfl
  | failed missed _ => rw [missed]; rfl

theorem after_tree (h : Replied s c r) : r.after.tree = s.tree := by
  cases h with
  | given _ tree => exact tree
  | failed _ tree => exact tree

theorem after_folder (h : Replied s c r) : r.after.engine.folder = s.engine.folder := by cases h <;> rfl

theorem after_kept (h : Replied s c r) : r.after.kept c.kind = (s.template c.kind).toOption := by
  cases h with
  | given found _ =>
    rw [found]
    exact Entries.get?_put_self _ _ _
  | failed missed _ =>
    cases known : s.kept c.kind with
    | none => rw [missed]; exact known
    | some x => exact absurd ((Use.template_of_kept known).symm.trans missed) (by simp)

theorem answer_of_ok (h : Replied s c r) (found : s.template c.kind = .ok x) : r.answer = .ok (r.call.shape x) := by
  rw [h.answer, h.call_eq, found]
  rfl

theorem after_kept_of_ok (h : Replied s c r) (found : s.template c.kind = .ok x) : r.after.kept c.kind = some x := by
  rw [h.after_kept, found]
  rfl

theorem of_error (h : Replied s c r) (missed : s.template c.kind = .error f) :
    r.answer = .error f ∧ r.after.engine = r.before.engine := by
  cases h with
  | given found _ => exact absurd (found.symm.trans missed) (by simp)
  | failed missed' _ => exact ⟨missed'.symm.trans missed, rfl⟩

theorem after_kept_of_ne (h : Replied s c r) (other : k ≠ c.kind) : r.after.kept k = s.kept k := by
  cases h with
  | given _ _ => exact Entries.get?_put_of_ne other _ _
  | failed _ _ => rfl

theorem after_kept_of_kept (h : Replied s c r) (known : s.kept k = some x) : r.after.kept k = some x := by
  by_cases same : k = c.kind
  · subst same
    exact h.after_kept_of_ok (Use.template_of_kept known)
  · rw [h.after_kept_of_ne same, known]

end Replied

namespace Use

theorem repliesFor_change (k : Kind) (s : Use) (t : FileTree) (h : List Event) :
    s.repliesFor k (.change t :: h) = (s.withTree t).repliesFor k h := rfl

theorem repliesFor_call (s : Use) (c : Call) (h : List Event) :
    s.repliesFor c.kind (.call c :: h) = s.reply c :: (s.reply c).after.repliesFor c.kind h := by
  refine List.filter_cons_of_pos ?_
  rw [(replied s c).call_eq]
  exact decide_eq_true rfl

theorem repliesFor_call_of_ne (s : Use) (other : k ≠ c.kind) (h : List Event) :
    s.repliesFor k (.call c :: h) = (s.reply c).after.repliesFor k h := by
  refine List.filter_cons_of_neg ?_
  rw [(replied s c).call_eq]
  simpa using Ne.symm other

end Use

theorem answers_of_kept (known : s.kept k = some x) (h : List Event) :
    ∀ r ∈ s.repliesFor k h, r.answer = .ok (r.call.shape x) := by
  induction h generalizing s with
  | nil => simp [Use.repliesFor, Use.replies]
  | cons event h ih =>
    cases event with
    | change t =>
      rw [Use.repliesFor_change]
      exact ih known
    | call c =>
      have step := replied s c
      have later := ih (step.after_kept_of_kept known)
      by_cases same : k = c.kind
      · subst same
        rw [Use.repliesFor_call]
        exact List.forall_mem_cons.2 ⟨step.answer_of_ok (Use.template_of_kept known), later⟩
      · rwa [Use.repliesFor_call_of_ne s same]

/-- How the calls for one kind have to be answered: as long as the tree shows no template they fail for the reason it shows, and
the engine stays as it was; from the first that finds one on, all are given its text. -/
inductive Coherent (folder : Option Path) (k : Kind) : List Reply → Prop
  | nil : Coherent folder k []
  | failed {r : Reply} {rs : List Reply} {f : Failure} (missed : Shows r.before.tree k folder (.error f))
      (answer : r.answer = .error f) (stays : r.after.engine = r.before.engine) (rest : Coherent folder k rs) :
      Coherent folder k (r :: rs)
  | given {r : Reply} {rs : List Reply} {x : Text} (found : Shows r.before.tree k folder (.ok x))
      (answers : ∀ r' ∈ r :: rs, r'.answer = .ok (r'.call.shape x)) : Coherent folder k (r :: rs)

theorem coherent_of_fresh (fresh : s.kept k = none) (h : List Event) :
    Coherent s.engine.folder k (s.repliesFor k h) := by
  induction h generalizing s with
  | nil => exact .nil
  | cons event h ih =>
    cases event with
    | change t =>
      rw [Use.repliesFor_change]
      exact @ih (s.withTree t) fresh
    | call c =>
      have step := replied s c
      by_cases same : k = c.kind
      · subst same
        have shown : Shows (s.reply c).before.tree c.kind s.engine.folder (s.template c.kind) := by
          rw [step.before_eq, Use.template_of_fresh fresh]
          exact shows_templateIn _ _ _
        rw [Use.repliesFor_call]
        -- The first call that finds a template makes it known to the engine, and no later one looks at the tree.
        cases found : s.template c.kind with
        | ok x =>
          rw [found] at shown
          have later := answers_of_kept (step.after_kept_of_ok found) h
          exact .given shown (List.forall_mem_cons.2 ⟨step.answer_of_ok found, later⟩)
        | error f =>
          rw [found] at shown
          obtain ⟨answer, stays⟩ := step.of_error found
          have later : (s.reply c).after.kept c.kind = none := by
            rw [Use.kept, stays, step.before_eq]
            exact fresh
          exact .failed shown answer stays (step.after_folder ▸ ih later)
      · rw [Use.repliesFor_call_of_ne s same, ← step.after_folder]
        exact ih ((step.after_kept_of_ne same).trans fresh)

theorem Coherent.of_error {rs : List Reply} (coherent : Coherent folder k rs) {r : Reply} (hr : r ∈ rs)
    (failed : r.answer = .error f) : Shows r.before.tree k folder (.error f) ∧ r.after.engine = r.before.engine := by
  induction coherent with
  | nil => exact absurd hr List.not_mem_nil
  | failed missed answer stays _ ih =>
    rcases List.mem_cons.1 hr with rfl | hr
    · rw [answer] at failed
      obtain rfl := Except.error.inj failed
      exact ⟨missed, stays⟩
    · exact ih hr
  | given _ answers => exact absurd ((answers r hr).symm.trans failed) (by simp)

theorem Coherent.of_shows {rs : List Reply} (coherent : Coherent folder k rs) {r : Reply} (hr : r ∈ rs)
    (found : Shows r.before.tree k folder (.ok x)) : ∃ y, r.answer = .ok y := by
  cases answer : r.answer with
  | ok y => exact ⟨y, rfl⟩
  | error f =>
    obtain ⟨missed, -⟩ := coherent.of_error hr answer
    exact absurd (found.eq_templateIn.trans missed.eq_templateIn.symm) (by simp)

/-- Two uses of an engine that a call for a kind finds alike. -/
structure Alike (k : Kind) (s s' : Use) : Prop where
  folder : s.engine.folder = s'.engine.folder
  tree : s.tree = s'.tree
  kept : s.kept k = s'.kept k

theorem Alike.template (alike : Alike k s s') : s.template k = s'.template k := by
  cases known : s.kept k with
  | some x => rw [Use.template_of_kept known, Use.template_of_kept (alike.kept ▸ known)]
  | none =>
    rw [Use.template_of_fresh known, Use.template_of_fresh (alike.kept ▸ known), alike.folder, alike.tree]

theorem Alike.after (alike : Alike c.kind s s') : Alike c.kind (s.reply c).after (s'.reply c).after where
  folder := by rw [(replied s c).after_folder, (replied s' c).after_folder, alike.folder]
  tree := by rw [(replied s c).after_tree, (replied s' c).after_tree, alike.tree]
  kept := by rw [(replied s c).after_kept, (replied s' c).after_kept, alike.template]

theorem Alike.after_of_ne (alike : Alike k s s') (other : k ≠ c.kind) : Alike k (s.reply c).after s' where
  folder := (replied s c).after_folder.trans alike.folder
  tree := (replied s c).after_tree.trans alike.tree
  kept := ((replied s c).after_kept_of_ne other).trans alike.kept

/-- The answers for one kind stay the same when the calls for all others are left out. -/
theorem answers_concerning (alike : Alike k s s') (h : List Event) :
    (s.repliesFor k h).map Reply.answer = (s'.replies (h.filter (Event.concerns k))).map Reply.answer := by
  induction h generalizing s s' with
  | nil => rfl
  | cons event h ih =>
    cases event with
    | change t =>
      rw [Use.repliesFor_change]
      exact ih ⟨alike.folder, rfl, alike.kept⟩
    | call c =>
      by_cases same : k = c.kind
      · subst same
        have answers : (s.reply c).answer = (s'.reply c).answer := by
          rw [(replied s c).answer, (replied s' c).answer, alike.template]
        have concerned : Event.concerns c.kind (.call c) = true := decide_eq_true rfl
        rw [Use.repliesFor_call, List.filter_cons_of_pos concerned]
        exact congrArg₂ List.cons answers (ih alike.after)
      · have skipped : ¬ Event.concerns k (.call c) = true := by simpa [Event.concerns] using Ne.symm same
        rw [Use.repliesFor_call_of_ne s same, List.filter_cons_of_neg skipped]
        exact ih (alike.after_of_ne same)

/-- For every engine that is started, every kind and every history of calls, between which the tree may become any other: the
calls for the kind are answered coherently. One that fails leaves the engine as it was, and its failure is the template's unless
a null character stands in the template's path; one that finds a template in the tree does not fail; and the calls for other
kinds could as well be left out. -/
theorem templates_coherent (settings : Settings) (given : Option Path) (w : World) (h : List Event) (k : Kind) :
    ∃ e w', World.run (Engine.start settings given) w = (.ok e, w') ∧
      let start : Use := ⟨e, w'⟩
      let folder := Engine.folderOf settings given
      Coherent folder k (start.repliesFor k h) ∧
      (∀ r ∈ start.repliesFor k h, ∀ f, r.answer = .error f → r.after.engine = r.before.engine ∧
        ∃ p ∈ folder,
          ('\x00' ∉ (templatePath p k).text ∧
            ∃ reason, f = .templateUnreadable k (templatePath p k).text reason) ∨
          ('\x00' ∈ (templatePath p k).text ∧ f = .refused .nullInPath)) ∧
      (∀ r ∈ start.repliesFor k h, ∀ x, Shows r.before.tree k folder (.ok x) → ∃ y, r.answer = .ok y) ∧
      (start.repliesFor k h).map Reply.answer = (start.replies (h.filter (Event.concerns k))).map Reply.answer := by
  refine ⟨{ folder := Engine.folderOf settings given }, _, rfl, ?_⟩
  intro start folder
  have fresh : start.kept k = none := rfl
  have coherent : Coherent folder k (start.repliesFor k h) := coherent_of_fresh fresh h
  refine ⟨coherent, ?_, fun r hr x found => coherent.of_shows hr found, answers_concerning ⟨rfl, rfl, rfl⟩ h⟩
  intro r hr f failed
  obtain ⟨missed, stays⟩ := coherent.of_error hr failed
  exact ⟨stays, missed.failure⟩

/-- A folder of templates whose name holds a null character: to load a template from it fails, and not with the template's
failure. -/
theorem null_folder_escapes :
    ∃ e w, World.run (Engine.start { templatesFolder := some "a\x00b".toList } none) { tree := .empty } = (.ok e, w) ∧
      ∃ f, (World.run (e.load .model) w).1 = .error f ∧ ∀ path reason, f ≠ .templateUnreadable .model path reason :=
  ⟨_, _, rfl, .refused .nullInPath, by rfl, fun _ _ => by simp⟩

section Samples

def modelTree : FileTree where
  nodes := [
    (["t".toList], .folder),
    (["t".toList, "model.ts.tpl".toList], .file (Utf8.encode "a $\x7bModelName\x7d\r\n".toList))]
  work := []

def comingAndGoing : List Event := [
  .call (.load .model), .change modelTree, .call (.load .service),
  .call (.render .model [("ModelName".toList, "Widget".toList)]), .change .empty, .call (.load .model)]

example :
    ((Use.mk { folder := some ⟨.slash, ["t".toList]⟩ } { tree := .empty }).repliesFor .model comingAndGoing).map
      (·.answer.toOption) = [none, some "a Widget\n".toList, some "a $\x7bModelName\x7d\n".toList] := by
  decide +kernel

end Samples

end EntityScaffold.Run
