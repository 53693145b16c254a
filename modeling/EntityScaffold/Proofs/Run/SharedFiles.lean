import EntityScaffold.Proofs.Run.Artifacts
import EntityScaffold.Proofs.Run.Registration

/-
What becomes of the shared files of a run, one after the other.
-/

namespace EntityScaffold.Run

open FileTree (Change SourceChange)
open SharedFile (Target Registration Outcome builtIn)

variable {g : Generator} {t t₀ u : FileTree} {target : Target} {ts : List Target} {w w' : Progress} {f : Failure}
variable {context : Template.Context} {entity : Text} {root p : Path} {dry : Bool}

/-- The text of a shared file, if a tree shows a file at its path at all. -/
def sharedAt (t : FileTree) (p : Path) : Except Failure (Option Text) :=
  match t.look p with
  | .ok .file => (textAt t p).map some
  | .ok _ => .ok none
  | .error r => .error (.refused r)

def reportFor (target : Target) (context : Template.Context) : Option Text → Registration
  | some content => reportOf target (target.register context content)
  | none => {
      target := target.name
      filePath := target.filePath
      warnings := ["Shared file not found: ".toList ++ target.filePath] }

inductive Registered (p : Path) (dry : Bool) (target : Target) (context : Template.Context) (t : FileTree) :
    Except Failure Registration → FileTree → Prop
  | kept {seen : Option Text} (h : sharedAt t p = .ok seen)
      (idle : ∀ content ∈ seen, dry = true ∨ (target.register context content).left content = content) :
      Registered p dry target context t (.ok (reportFor target context seen)) t
  | patched {content : Text} {n : Nat} {u : FileTree} (h : sharedAt t p = .ok (some content)) (real : dry = false)
      (new : (target.register context content).left content ≠ content)
      (written : TextWritten t p ((target.register context content).left content) (.ok n) u) :
      Registered p dry target context t (.ok (reportFor target context (some content))) u
  | unseen {f : Failure} (h : sharedAt t p = .error f) : Registered p dry target context t (.error f) t
  | unwritten {content : Text} {f : Failure} {u : FileTree} (h : sharedAt t p = .ok (some content)) (real : dry = false)
      (new : (target.register context content).left content ≠ content)
      (refused : TextWritten t p ((target.register context content).left content) (.error f) u) :
      Registered p dry target context t (.error f) u

theorem ensures_register (root : Path) (dry : Bool) (target : Target) (entity : Text) (context : Template.Context)
    (t : FileTree) :
    (register root dry target entity context).Ensures t (Registered (root / target.place) dry target context t) := by
  unfold register
  dsimp only
  refine (Job.ensures_look t (root / target.place)).bind ?_ ?_
  · rintro sight u ⟨hlook⟩
    have absent (h : sharedAt t (root / target.place) = .ok none) :
        Registered (root / target.place) dry target context t (.ok (reportFor target context none)) t :=
      .kept h (by simp)
    cases sight with
    | nothing => exact Job.ensures_note (Job.ensures_pure (absent (by simp only [sharedAt, hlook])))
    | folder => exact Job.ensures_note (Job.ensures_pure (absent (by simp only [sharedAt, hlook])))
    | file =>
      have shown : sharedAt t (root / target.place) = (textAt t (root / target.place)).map some := by
        simp only [sharedAt, hlook]
      refine (ensures_readText t (root / target.place)).bind ?_ ?_
      · rintro content v ⟨htext, rfl⟩
        rw [← htext] at shown
        have kept := @Registered.kept (root / target.place) dry target context v _ shown
        simp only [Option.mem_some_iff, forall_eq', reportFor] at kept
        have patched := @Registered.patched (root / target.place) dry target context v content
        have unwritten := @Registered.unwritten (root / target.place) dry target context v content
        cases houtcome : target.register context content with
        | registered =>
          rw [houtcome] at kept
          exact Job.ensures_note (Job.ensures_pure (kept (Or.inr rfl)))
        | spliced s =>
          simp only [houtcome, reportFor, Outcome.left] at kept patched unwritten
          refine Job.ensures_notes _ ?_
          split
          · next hwrite =>
            simp only [Bool.and_eq_true, decide_eq_true_eq, Bool.not_eq_true'] at hwrite
            obtain ⟨new, real⟩ := hwrite
            refine (ensures_writeFile v (root / target.place) s.content).bind ?_ ?_
            · intro n u written
              exact Job.ensures_note (Job.ensures_pure (patched shown real new written))
            · intro f u refused
              exact unwritten shown real new refused
          · next hidle =>
            refine Job.ensures_note (Job.ensures_pure (kept ?_))
            by_contra h
            simp only [not_or] at h
            simp [h.1, h.2] at hidle
      · rintro f v ⟨htext, rfl⟩
        refine .unseen ?_
        rw [shown, ← htext]
        rfl
  · rintro f u (_ | hlook)
    exact .unseen (by simp only [sharedAt, hlook])

theorem sharedAt_some_iff {content : Text} :
    sharedAt t p = .ok (some content) ↔ textAt t p = .ok content := by
  constructor
  · intro h
    unfold sharedAt at h
    split at h
    · cases htext : textAt t p with
      | ok x => simpa [htext, Except.map] using h
      | error f => simp [htext, Except.map] at h
    · exact absurd h (by simp)
    · exact absurd h (by simp)
  · intro h
    obtain ⟨octets, hread, -⟩ := textAt_ok_iff.1 h
    simp only [sharedAt, FileTree.look_of_read hread, h]
    rfl

theorem sharedAt_error (h : sharedAt t p = .error f) :
    f.isSystem = true ∨ ∃ octets fault, t.get? (t.locationOf p) = some (.file octets) ∧
      Utf8.decode octets = .error fault ∧ f = .undecodable fault := by
  unfold sharedAt at h
  split at h
  · next hlook =>
    cases htext : textAt t p with
    | ok x => simp [htext, Except.map] at h
    | error f' =>
      obtain rfl : f' = f := by simpa [htext, Except.map] using h
      rcases textAt_error_of_file hlook htext with system | ⟨octets, fault, hread, hfault, rfl⟩
      · exact Or.inl system
      · exact Or.inr ⟨octets, fault, (FileTree.read_eq_ok_iff.1 hread).2.2.2, hfault, rfl⟩
  · exact absurd h (by simp)
  · next r hlook =>
    obtain rfl := Except.error.inj h
    obtain ⟨reason, path, target, rfl⟩ := FileTree.look_error hlook
    exact Or.inl rfl

namespace Registered

theorem error_cases (h : Registered p dry target context t (.error f) u) :
    f.isSystem = true ∨ ∃ octets fault, t.get? (t.locationOf p) = some (.file octets) ∧
      Utf8.decode octets = .error fault ∧ f = .undecodable fault := by
  cases h with
  | unseen h => exact sharedAt_error h
  | unwritten h _ _ refused =>
    cases refused with | refused _ _ refuses =>
    obtain ⟨octets, hread, -⟩ := textAt_ok_iff.1 (sharedAt_some_iff.1 h)
    exact Or.inl (refuses.resolve_right fun null => (FileTree.read_eq_ok_iff.1 hread).1.null null.2)

theorem seen {report : Registration} (h : Registered p dry target context t (.ok report) u) :
    ∃ s, sharedAt t p = .ok s ∧ report = reportFor target context s := by
  cases h with
  | kept h _ => exact ⟨_, h, rfl⟩
  | patched h _ _ _ => exact ⟨_, h, rfl⟩

theorem tree_of_dry {r : Except Failure Registration} (h : Registered p dry target context t r u) (hdry : dry = true) :
    u = t := by
  cases h with
  | kept => rfl
  | patched _ real _ _ => exact absurd (real.symm.trans hdry) (by simp)
  | unseen => rfl
  | unwritten _ real _ _ => exact absurd (real.symm.trans hdry) (by simp)

theorem change {r : Except Failure Registration} (h : Registered p dry target context t r u) :
    (t.Accepts p ∧ Change {l | l ∈ t.passedBy p.parent} {t.locationOf p} t u) ∨
      Change {l | l ∈ t.passedBy p.parent} ∅ t u := by
  cases h with
  | kept => exact Or.inr (.refl _ _ _)
  | patched _ _ _ written =>
    cases written with | written accepts change _ _ =>
    exact Or.inl ⟨accepts, change⟩
  | unseen => exact Or.inr (.refl _ _ _)
  | unwritten _ _ _ refused =>
    cases refused with | refused change _ _ =>
    exact Or.inr change

theorem change_univ {r : Except Failure Registration} (h : Registered p dry target context t r u) :
    Change Set.univ Set.univ t u := by
  rcases h.change with ⟨-, change⟩ | change
  · exact change.mono (Set.subset_univ _) (Set.subset_univ _)
  · exact change.mono (Set.subset_univ _) (Set.subset_univ _)

theorem sourceChange {q : Path} {r : Except Failure Registration} (hq : q.IsSource)
    (h : Registered (root / q) dry target context t r u) : SourceChange root {q} t u := by
  rcases h.change with ⟨accepts, change⟩ | change
  · exact .of_written hq accepts change
  · exact .of_refused hq change _

end Registered

def Progress.withRegistration (w : Progress) (r : Registration) : Progress :=
  { w with report := { w.report with
    registrations := w.report.registrations ++ [r]
    warnings := w.report.warnings ++ r.warnings.map fun m => r.filePath ++ ": ".toList ++ m } }

/-- How a run goes on after one shared file. -/
inductive RegistrationStep (g : Generator) (target : Target) (context : Template.Context) (w : Progress) (t : FileTree) :
    Except Failure Progress → FileTree → Prop
  | reported {r : Registration} {u : FileTree}
      (h : Registered (g.root / target.place) g.dryRun target context t (.ok r) u) :
      RegistrationStep g target context w t (.ok (w.withRegistration r)) u
  | noted {f : Failure} {u : FileTree} (h : Registered (g.root / target.place) g.dryRun target context t (.error f) u) :
      RegistrationStep g target context w t (.ok (w.withError (target.filePath ++ ": ".toList ++ f.message))) u
  | stopped {f : Failure} {u : FileTree} (h : Registered (g.root / target.place) g.dryRun target context t (.error f) u)
      (other : ¬ f.isSystem = true) : RegistrationStep g target context w t (.error f) u

theorem ensures_registerOne (g : Generator) (entity : Text) (context : Template.Context) (w : Progress)
    (target : Target) (t : FileTree) :
    (registerOne g entity context w target).Ensures t (RegistrationStep g target context w t) := by
  unfold registerOne
  refine (ensures_register g.root g.dryRun target entity context t).attempt ?_
  intro r u registered
  cases r with
  | ok r => exact Job.ensures_pure (.reported registered)
  | error f =>
    dsimp only
    split
    · exact ensures_fail _ (.noted registered)
    · next other => exact Job.ensures_failed (.stopped registered other)

theorem RegistrationStep.registered {r : Except Failure Progress} (h : RegistrationStep g target context w t r u) :
    ∃ r', Registered (g.root / target.place) g.dryRun target context t r' u := by
  cases h with
  | reported h => exact ⟨_, h⟩
  | noted h => exact ⟨_, h⟩
  | stopped h _ => exact ⟨_, h⟩

/-- Whatever the shared files are: nothing but octets that are no text stops the run, and these were there before it. -/
theorem ensures_registerAll (g : Generator) (entity : Text) (context : Template.Context) (ts : List Target)
    (w : Progress) (t : FileTree) :
    (registerAll g entity context ts w).Ensures t fun r u =>
      Change Set.univ Set.univ t u ∧ (g.dryRun = true → u = t) ∧
        ((∃ w', r = .ok w' ∧ w'.exporter = w.exporter) ∨
          ∃ target ∈ ts, ∃ octets fault, t.get? (t.locationOf (g.root / target.place)) = some (.file octets) ∧
            Utf8.decode octets = .error fault ∧ r = .error (.undecodable fault)) := by
  induction ts generalizing w t with
  | nil => exact Job.ensures_pure ⟨.refl _ _ _, fun _ => rfl, Or.inl ⟨w, rfl, rfl⟩⟩
  | cons target ts ih =>
    refine (ensures_registerOne g entity context w target t).bind ?_ ?_
    · intro w₁ t₁ step
      obtain ⟨r₁, registered⟩ := step.registered
      have same : w₁.exporter = w.exporter := by
        cases step with
        | reported => rfl
        | noted => rfl
      refine (ih w₁ t₁).mono ?_
      rintro r u ⟨change, dry, ends⟩
      refine ⟨registered.change_univ.trans change, fun d => ?_, ?_⟩
      · rw [dry d, registered.tree_of_dry d]
      · rcases ends with ⟨w', hw', exporter⟩ | ⟨target', ht', octets, fault, file, hfault, rfl⟩
        · exact Or.inl ⟨w', hw', exporter.trans same⟩
        · refine Or.inr ⟨target', List.mem_cons_of_mem _ ht', octets, fault, ?_, hfault, rfl⟩
          rw [registered.change_univ.locationOf] at file
          rcases registered.change_univ.file_cases file with before | ⟨text, rfl⟩
          · exact before
          · rw [Utf8.decode_encode] at hfault
            exact absurd hfault (by simp)
    · intro f u step
      cases step with | stopped h other =>
      obtain ⟨octets, fault, file, hfault, rfl⟩ := h.error_cases.resolve_left other
      exact ⟨h.change_univ, h.tree_of_dry,
        Or.inr ⟨target, List.mem_cons_self, octets, fault, file, hfault, rfl⟩⟩

def sharedPlaces (ts : List Target) : Set Path := {q | ∃ target ∈ ts, q = target.place}

theorem place_not_mem_places {e : Naming.Identifier} {ks : List Artifact.Kind} (ht : target ∈ builtIn) :
    target.place ∉ places e ks := by
  rintro ⟨k, -, heq⟩
  exact SharedFile.place_ne_outputPath ht k e heq

/-- What becomes of a report while shared files are gone through. -/
structure RegisteredAll (g : Generator) (ts : List Target) (w : Progress) (t : FileTree) (w' : Progress) (u : FileTree) :
    Prop where
  exporter : w'.exporter = w.exporter
  files : w'.report.files = w.report.files
  errors : ∃ errors, w'.report.errors = w.report.errors ++ errors ∧
    ∀ m ∈ errors, ∃ target ∈ ts, target.filePath ++ ": ".toList <+: m
  change : SourceChange g.root (sharedPlaces ts) t u

theorem ensures_registeredAll (sub : ts ⊆ builtIn) (w : Progress) (t : FileTree) :
    (registerAll g entity context ts w).Ensures t fun r u => ∀ w', r = .ok w' → RegisteredAll g ts w t w' u := by
  induction ts generalizing w t with
  | nil =>
    refine Job.ensures_pure ?_
    rintro w' ⟨⟩
    exact ⟨rfl, rfl, ⟨[], by simp, by simp⟩, .refl _ _ _⟩
  | cons target ts ih =>
    obtain ⟨mem, sub⟩ := List.cons_subset.1 sub
    refine (ensures_registerOne g entity context w target t).bind ?_ (by rintro f u - w' ⟨⟩)
    intro w₁ t₁ step
    obtain ⟨r₁, registered⟩ := step.registered
    have change := registered.sourceChange (SharedFile.place_source mem)
    refine (ih sub w₁ t₁).mono fun r u rest w' hw' => ?_
    obtain ⟨exporter, files, ⟨errors, herrors, names⟩, change'⟩ := rest w' hw'
    have whole : SourceChange g.root (sharedPlaces (target :: ts)) t u := by
      refine (change.trans change').mono ?_
      rintro q (rfl | ⟨target', hm, rfl⟩)
      · exact ⟨target, List.mem_cons_self, rfl⟩
      · exact ⟨target', List.mem_cons_of_mem _ hm, rfl⟩
    have further : ∀ m ∈ errors, ∃ target' ∈ target :: ts, target'.filePath ++ ": ".toList <+: m := by
      intro m hm
      obtain ⟨target', ht', named⟩ := names m hm
      exact ⟨target', List.mem_cons_of_mem _ ht', named⟩
    cases step with
    | reported h => exact ⟨exporter, files, ⟨errors, herrors, further⟩, whole⟩
    | @noted f _ h =>
      refine ⟨exporter, files, ⟨(target.filePath ++ ": ".toList ++ f.message) :: errors, ?_, ?_⟩, whole⟩
      · rw [herrors]
        simp [Progress.withError]
      · rintro m (_ | ⟨_, hm⟩)
        · exact ⟨target, List.mem_cons_self, List.prefix_append _ _⟩
        · exact further m hm

end EntityScaffold.Run
