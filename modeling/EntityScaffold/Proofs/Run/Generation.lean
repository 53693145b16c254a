import EntityScaffold.Proofs.Run.SharedFiles

/-
How a run ends: with a report, or stopped by one of a few causes. Before the first file is written, the schema and the
numbers in it are settled; from then on only null characters in paths and shared files that are no text stop a run.
-/

namespace EntityScaffold.Run

open Artifact (Kind)
open FileTree (Change SourceChange)
open Naming (Identifier)
open SharedFile (Target builtIn)

variable {g : Generator} {t u : FileTree} {entity permission : Text} {manifest : Option Path} {w : Progress}

namespace Generator

def schemaPath (g : Generator) : Path := g.root / Path.ofText g.settings.schemaPath

def manifestPath (g : Generator) (p : Path) : Path := if p.isAbsolute then p else g.root / p

def opening (g : Generator) (entity permission : Text) (m : Schema.Model) : Progress where
  engine := { folder := g.templateFolder }
  exporter := Exporter.start g.root entity version true g.dryRun
  report := {
    entity := entity
    permission := permission
    projectRoot := g.root.text
    dryRun := g.dryRun
    warnings := m.warnings }

theorem opening_serves (g : Generator) (entity permission : Text) (m : Schema.Model) :
    (g.opening entity permission m).Serves g Kind.all := ⟨rfl, rfl, rfl, rfl, fun _ _ => rfl⟩

end Generator

def Progress.closing (w : Progress) : Report :=
  { w.report with success := w.report.errors.isEmpty, nanoseconds := 0, manifest := w.exporter.manifest }

section Model

theorem asks_readSchema {p : Path} (look : t.look p = u.look p) (read : t.read p = u.read p) :
    (readSchema p).Asks (Request.Alike t u) := by
  unfold readSchema
  refine (Job.asks_look look).bind fun sight => ?_
  cases sight with
  | nothing => exact Job.asks_failed _
  | folder => exact Job.asks_failed _
  | file =>
    dsimp only
    refine ((Job.asks_read read).bind fun _ => Job.asks_ofExcept _).attempt.bind fun r => ?_
    cases r with
    | ok x => exact (Job.asks_note _).bind fun _ => Job.asks_pure x
    | error f =>
      dsimp only
      split
      · exact Job.asks_failed _
      · exact Job.asks_failed _

theorem asks_extract (schema entity : Text) (optional : List Text) :
    (extract schema entity optional).Asks (Request.Alike t u) := by
  unfold extract
  split
  · exact Job.asks_failed _
  · refine (Job.asks_notes _).bind fun _ => ?_
    split
    · exact Job.asks_failed _
    · exact Job.asks_pure _

theorem asks_model (look : t.look g.schemaPath = u.look g.schemaPath)
    (read : t.read g.schemaPath = u.read g.schemaPath) :
    (g.model entity).Asks (Request.Alike t u) :=
  (asks_readSchema look read).bind fun schema => asks_extract schema entity _

theorem asks_context (m : Schema.Model) : (g.context m permission).Asks (Request.Alike t u) := by
  unfold Generator.context
  dsimp only
  split
  · exact (Job.asks_notes _).bind fun _ => Job.asks_pure _
  · exact Job.asks_failed _

theorem ensures_readSchema (t : FileTree) (p : Path) :
    (readSchema p).Ensures t fun r u => u = t ∧ ((∃ x, r = .ok x ∧ textAt t p = .ok x) ∨
      ∃ f, r = .error f ∧
        (f.isOfSchema = true ∨ ∃ refusal, t.look p = .error refusal ∧ f = .refused refusal)) := by
  unfold readSchema
  refine (Job.ensures_look t p).bind ?_ ?_
  · rintro sight u ⟨hlook⟩
    cases sight with
    | nothing => exact Job.ensures_failed ⟨rfl, Or.inr ⟨_, rfl, Or.inl rfl⟩⟩
    | folder => exact Job.ensures_failed ⟨rfl, Or.inr ⟨_, rfl, Or.inl rfl⟩⟩
    | file =>
      refine (ensures_readText t p).attempt ?_
      rintro r u ⟨rfl, rfl⟩
      cases htext : textAt u p with
      | ok x => exact Job.ensures_note (Job.ensures_pure ⟨rfl, Or.inl ⟨x, rfl, rfl⟩⟩)
      | error f =>
        dsimp only
        split
        · exact Job.ensures_failed ⟨rfl, Or.inr ⟨_, rfl, Or.inl rfl⟩⟩
        · next other =>
          rcases textAt_error_of_file hlook htext with system | ⟨octets, fault, -, -, rfl⟩
          · exact absurd (by simp [system]) other
          · exact absurd rfl other
  · rintro f u (_ | hlook)
    exact ⟨rfl, Or.inr ⟨_, rfl, Or.inr ⟨_, hlook, rfl⟩⟩⟩

theorem ensures_extract (schema entity : Text) (optional : List Text) (t : FileTree) :
    (extract schema entity optional).Ensures t fun r _ => (∃ m, r = .ok m ∧ entity ≠ [] ∧ m.entity = entity) ∨
      ∃ f, r = .error f ∧ (f.isOfSchema = true ∨ entity = []) := by
  unfold extract
  split
  · exact Job.ensures_failed (Or.inr ⟨_, rfl, Or.inl rfl⟩)
  · refine Job.ensures_notes _ ?_
    split
    · next empty => exact Job.ensures_failed (Or.inr ⟨_, rfl, Or.inr (List.isEmpty_iff.1 empty)⟩)
    · next named => exact Job.ensures_pure (Or.inl ⟨_, rfl, fun h => named (List.isEmpty_iff.2 h), rfl⟩)

theorem ensures_model (g : Generator) (entity : Text) (t : FileTree) :
    (g.model entity).Ensures t fun r _ =>
      (∃ m, r = .ok m ∧ (∃ x, textAt t g.schemaPath = .ok x) ∧ entity ≠ [] ∧ m.entity = entity) ∨
        ∃ f, r = .error f ∧ (f.isOfSchema = true ∨
          (∃ refusal, t.look g.schemaPath = .error refusal ∧ f = .refused refusal) ∨ entity = []) := by
  refine (ensures_readSchema t g.schemaPath).bind ?_ ?_
  · rintro x u ⟨-, ⟨x', hx, htext⟩ | ⟨f, hf, -⟩⟩
    · refine (ensures_extract x entity _ u).mono fun r _ ends => ?_
      rcases ends with ⟨m, hm, named, same⟩ | ⟨f, hf, ofSchema | empty⟩
      · exact Or.inl ⟨m, hm, ⟨x', htext⟩, named, same⟩
      · exact Or.inr ⟨f, hf, Or.inl ofSchema⟩
      · exact Or.inr ⟨f, hf, Or.inr (Or.inr empty)⟩
    · exact absurd hf (by simp)
  · rintro f u ⟨-, ⟨x, hx, -⟩ | ⟨f', hf', ofSchema | refused⟩⟩
    · exact absurd hx (by simp)
    · exact Or.inr ⟨f', congrArg Except.error (Except.error.inj hf'), Or.inl ofSchema⟩
    · exact Or.inr ⟨f', congrArg Except.error (Except.error.inj hf'), Or.inr (Or.inl refused)⟩

theorem model_ok {m : Schema.Model} (h : (g.model entity).resultIn t = .ok m) :
    (∃ x, textAt t g.schemaPath = .ok x) ∧ entity ≠ [] ∧ m.entity = entity := by
  obtain ⟨-, ⟨m', hm', facts⟩ | ⟨f, hf, -⟩⟩ := (ensures_model g entity t).resultIn
  · rw [h] at hm'
    rwa [← Except.ok.inj hm'] at facts
  · rw [h] at hf
    exact absurd hf (by simp)

theorem model_error {f : Failure} (h : (g.model entity).resultIn t = .error f) :
    f.isOfSchema = true ∨ (∃ refusal, t.look g.schemaPath = .error refusal ∧ f = .refused refusal) ∨
      entity = [] := by
  obtain ⟨-, ⟨m, hm, -⟩ | ⟨f', hf, cause⟩⟩ := (ensures_model g entity t).resultIn
  · rw [h] at hm
    exact absurd hm (by simp)
  · rw [h] at hf
    rwa [Except.error.inj hf]

theorem ensures_context (g : Generator) (m : Schema.Model) (permission : Text) (t : FileTree) :
    (g.context m permission).Ensures t fun r _ =>
      (∃ rest, r = .ok (Template.nameContext m.entity g.settings.apiPrefix ++ rest)) ∨
        (r = .error .numberTooLong ∧ ∃ f ∈ m.editable g.settings.systemFields,
          RequestChecks.isWritable g.settings.maxLength f = false) := by
  unfold Generator.context
  dsimp only
  split
  · exact Job.ensures_notes _ (Job.ensures_pure (Or.inl ⟨_, rfl⟩))
  · next long =>
    have some_ : ∃ f ∈ m.editable g.settings.systemFields,
        RequestChecks.isWritable g.settings.maxLength f = false := by simpa using long
    exact Job.ensures_failed (Or.inr ⟨rfl, some_⟩)

end Model

inductive ManifestStep (g : Generator) (manifest : Option Path) (w : Progress) (t : FileTree) :
    Except Failure Progress → FileTree → Prop
  | skipped (h : manifest = none ∨ g.dryRun = true) : ManifestStep g manifest w t (.ok w) t
  | written {p : Path} {content : Text} {n : Nat} {u : FileTree} (h : manifest = some p) (real : g.dryRun = false)
      (written : TextWritten t (g.manifestPath p) content (.ok n) u) : ManifestStep g manifest w t (.ok w) u
  | noted {p : Path} {content : Text} {f : Failure} {u : FileTree} (h : manifest = some p) (real : g.dryRun = false)
      (refused : TextWritten t (g.manifestPath p) content (.error f) u) :
      ManifestStep g manifest w t (.ok (w.withError ("Manifest: ".toList ++ f.message))) u
  | stopped {p : Path} {content : Text} {u : FileTree} (h : manifest = some p) (real : g.dryRun = false)
      (null : '\x00' ∈ (g.manifestPath p).text)
      (refused : TextWritten t (g.manifestPath p) content (.error (.refused .nullInPath)) u) :
      ManifestStep g manifest w t (.error (.refused .nullInPath)) u

theorem ensures_manifestStage {w₀ : Progress} (h : w₀.Serves g []) (same : w.exporter = w₀.exporter)
    (manifest : Option Path) (t : FileTree) :
    (manifestStage g manifest w).Ensures t (ManifestStep g manifest w t) := by
  unfold manifestStage
  cases manifest with
  | none => exact Job.ensures_pure (.skipped (Or.inl rfl))
  | some p =>
    dsimp only
    split
    · next dry => exact Job.ensures_pure (.skipped (Or.inr dry))
    · next hreal =>
      have real : g.dryRun = false := by simpa using hreal
      have writing : (w.exporter.writeManifest p).Ensures t fun r u =>
          ∃ content, (r = .ok () ∧ ∃ n, TextWritten t (g.manifestPath p) content (.ok n) u) ∨
            ∃ f, r = .error f ∧ TextWritten t (g.manifestPath p) content (.error f) u := by
        unfold Exporter.writeManifest
        dsimp only
        rw [same, h.root, h.atomic]
        refine (ensures_writeFile t (g.manifestPath p) w₀.exporter.manifestText).bind ?_ ?_
        · intro n u written
          exact Job.ensures_note (Job.ensures_pure ⟨_, Or.inl ⟨rfl, n, written⟩⟩)
        · intro f u refused
          exact ⟨_, Or.inr ⟨f, rfl, refused⟩⟩
      refine writing.attempt ?_
      rintro r u ⟨content, ⟨rfl, n, written⟩ | ⟨f, rfl, refused⟩⟩
      · exact Job.ensures_pure (.written rfl real written)
      · dsimp only
        split
        · exact ensures_fail _ (.noted rfl real refused)
        · next other =>
          have refuses : f.Refuses (g.manifestPath p) := by
            cases refused
            assumption
          obtain ⟨rfl, null⟩ := refuses.resolve_left other
          exact Job.ensures_failed (.stopped rfl real null refused)

/-- The stages that a run comes to, and where it ends. -/
inductive RunEnds (g : Generator) (entity permission : Text) (manifest : Option Path) (t : FileTree) :
    Except Failure Report → FileTree → Prop
  | unmodelled {f : Failure} (model : (g.model entity).resultIn t = .error f) :
      RunEnds g entity permission manifest t (.error f) t
  | unfilled {m : Schema.Model} {f : Failure} (model : (g.model entity).resultIn t = .ok m)
      (context : (g.context m permission).resultIn t = .error f) : RunEnds g entity permission manifest t (.error f) t
  | unmade {m : Schema.Model} {c : Template.Context} {f : Failure} {u : FileTree}
      (model : (g.model entity).resultIn t = .ok m) (context : (g.context m permission).resultIn t = .ok c)
      (made : (makeArtifacts g.settings.folders entity c Kind.all (g.opening entity permission m)).Ends t (.error f) u) :
      RunEnds g entity permission manifest t (.error f) u
  | unregistered {m : Schema.Model} {c : Template.Context} {w : Progress} {f : Failure} {u v : FileTree}
      (model : (g.model entity).resultIn t = .ok m) (context : (g.context m permission).resultIn t = .ok c)
      (made : (makeArtifacts g.settings.folders entity c Kind.all (g.opening entity permission m)).Ends t (.ok w) u)
      (registered : (registerAll g entity c g.settings.sharedFiles w).Ends u (.error f) v) :
      RunEnds g entity permission manifest t (.error f) v
  | unlisted {m : Schema.Model} {c : Template.Context} {w w' : Progress} {f : Failure} {u v x : FileTree}
      (model : (g.model entity).resultIn t = .ok m) (context : (g.context m permission).resultIn t = .ok c)
      (made : (makeArtifacts g.settings.folders entity c Kind.all (g.opening entity permission m)).Ends t (.ok w) u)
      (registered : (registerAll g entity c g.settings.sharedFiles w).Ends u (.ok w') v)
      (listed : (manifestStage g manifest w').Ends v (.error f) x) : RunEnds g entity permission manifest t (.error f) x
  | reported {m : Schema.Model} {c : Template.Context} {w w' w'' : Progress} {u v x : FileTree}
      (model : (g.model entity).resultIn t = .ok m) (context : (g.context m permission).resultIn t = .ok c)
      (made : (makeArtifacts g.settings.folders entity c Kind.all (g.opening entity permission m)).Ends t (.ok w) u)
      (registered : (registerAll g entity c g.settings.sharedFiles w).Ends u (.ok w') v)
      (listed : (manifestStage g manifest w').Ends v (.ok w'') x) :
      RunEnds g entity permission manifest t (.ok w''.closing) x

theorem ensures_run (g : Generator) (entity permission : Text) (manifest : Option Path) (t : FileTree) :
    (g.run entity permission manifest).Ensures t (RunEnds g entity permission manifest t) := by
  unfold Generator.run
  refine Job.ensures_time ?_
  have modelled : (g.model entity).Asks (Request.Alike t t) := asks_model rfl rfl
  refine (modelled.ensures.timed _).bind ?_ ?_
  · rintro m u ⟨model, rfl⟩
    have filled : (g.context m permission).Asks (Request.Alike u u) := asks_context m
    refine filled.ensures.bind ?_ ?_
    · rintro c v ⟨context, rfl⟩
      have making : (artifactStage g entity c {
          entity := entity
          permission := permission
          projectRoot := g.root.text
          dryRun := g.dryRun
          warnings := m.warnings }).Ensures v
          ((makeArtifacts g.settings.folders entity c Kind.all (g.opening entity permission m)).Ends v) := by
        unfold artifactStage Engine.start
        refine Job.ensures_note ?_
        refine (Job.ensures_ends v (makeArtifacts g.settings.folders entity c Kind.all
          (g.opening entity permission m))).bind ?_ fun f u made => made
        intro w u made
        exact Job.ensures_note (Job.ensures_pure made)
      refine (making.timed _).bind ?_ fun f u made => .unmade model.symm context.symm made
      intro w u made
      refine ((Job.ensures_ends u _).timed _).bind ?_ fun f x registered =>
        .unregistered model.symm context.symm made registered
      intro w' x registered
      refine (Job.ensures_ends x _).bind ?_ fun f y listed =>
        .unlisted model.symm context.symm made registered listed
      intro w'' y listed
      refine Job.ensures_time (Job.ensures_pure ?_)
      exact .reported model.symm context.symm made registered listed
    · rintro f v ⟨context, rfl⟩
      exact .unfilled model.symm context.symm
  · rintro f u ⟨model, rfl⟩
    exact .unmodelled model.symm

theorem Kind.nodup_all : Kind.all.Nodup := by
  decide

theorem ensures_artifacts (folders : g.settings.folders = {}) (e : Identifier) (permission : Text) (m : Schema.Model)
    (c : Template.Context) (t : FileTree) :
    (makeArtifacts g.settings.folders e.name c Kind.all (g.opening e.name permission m)).Ensures t fun r u =>
      (∃ w, r = .ok w ∧ ArtifactsMade g e c t t Kind.all (g.opening e.name permission m) w u) ∨
        (r = .error (.refused .nullInPath) ∧ ∃ k, g.NullAt e.name k) := by
  have serves := g.opening_serves e.name permission m
  have ends := @ensures_makeArtifacts g Kind.all _ c e.name serves Kind.nodup_all t
  have fates := @ensures_fates g t t Kind.all _ c e folders serves Kind.nodup_all _ (.refl _ (t.sources g.root ∅) t)
    (by simp) (Or.inl rfl)
  refine (ends.and fates).mono ?_
  rintro r u ⟨⟨-, -, ⟨w, rfl, -⟩ | null⟩, fates⟩
  · exact Or.inl ⟨w, rfl, fates w rfl⟩
  · exact Or.inr null

/-- A run whose model is there and can be filled in: where no stage stops, it reports, and leaves what its stages
leave. -/
theorem ensures_run_of_stages {m : Schema.Model} {c : Template.Context}
    (made registered listed : Progress → FileTree → Prop)
    (model : (g.model entity).resultIn t = .ok m) (context : (g.context m permission).resultIn t = .ok c)
    (making : (makeArtifacts g.settings.folders entity c Kind.all (g.opening entity permission m)).Ensures t
      fun r u => ∃ w, r = .ok w ∧ made w u)
    (registering : ∀ w u, made w u → (registerAll g entity c g.settings.sharedFiles w).Ensures u
      fun r v => ∃ w', r = .ok w' ∧ registered w' v)
    (listing : ∀ w v, registered w v → (manifestStage g manifest w).Ensures v
      fun r x => ∃ w', r = .ok w' ∧ listed w' x) :
    (g.run entity permission manifest).Ensures t fun r x => ∃ w, r = .ok w.closing ∧ listed w x := by
  refine (ensures_run g entity permission manifest t).mono ?_
  intro r x ends
  have alone {m' : Schema.Model} (h : (g.model entity).resultIn t = .ok m') : m = m' :=
    Except.ok.inj (model.symm.trans h)
  have same {c' : Template.Context} (h : (g.context m permission).resultIn t = .ok c') : c = c' :=
    Except.ok.inj (context.symm.trans h)
  have first {m' : Schema.Model} {c' : Template.Context} {r : Except Failure Progress} {u : FileTree}
      (found : (g.model entity).resultIn t = .ok m') (filled : (g.context m' permission).resultIn t = .ok c')
      (h : (makeArtifacts g.settings.folders entity c' Kind.all (g.opening entity permission m')).Ends t r u) :
      c = c' ∧ ∃ w, r = .ok w ∧ made w u := by
    obtain rfl := alone found
    obtain rfl := same filled
    exact ⟨rfl, making.of_ends h⟩
  cases ends with
  | unmodelled lost => exact absurd (lost.symm.trans model) (by simp)
  | unfilled found lost =>
    obtain rfl := alone found
    exact absurd (lost.symm.trans context) (by simp)
  | unmade found filled h =>
    obtain ⟨-, w, hw, -⟩ := first found filled h
    exact absurd hw (by simp)
  | unregistered found filled h h' =>
    obtain ⟨rfl, w, ⟨⟩, hmade⟩ := first found filled h
    obtain ⟨w', hw', -⟩ := (registering _ _ hmade).of_ends h'
    exact absurd hw' (by simp)
  | unlisted found filled h h' h'' =>
    obtain ⟨rfl, w, ⟨⟩, hmade⟩ := first found filled h
    obtain ⟨w', ⟨⟩, hregistered⟩ := (registering _ _ hmade).of_ends h'
    obtain ⟨w'', hw'', -⟩ := (listing _ _ hregistered).of_ends h''
    exact absurd hw'' (by simp)
  | reported found filled h h' h'' =>
    obtain ⟨rfl, w, ⟨⟩, hmade⟩ := first found filled h
    obtain ⟨w', ⟨⟩, hregistered⟩ := (registering _ _ hmade).of_ends h'
    obtain ⟨w'', ⟨⟩, hlisted⟩ := (listing _ _ hregistered).of_ends h''
    exact ⟨_, rfl, hlisted⟩

theorem RunEnds.reported_cases {e : Identifier} {report : Report} (folders : g.settings.folders = {})
    (targets : g.settings.sharedFiles = builtIn) (h : RunEnds g e.name permission manifest t (.ok report) u) :
    ∃ m c w₁ u₁ w₂ u₂ w₃,
      (g.model e.name).resultIn t = .ok m ∧ (g.context m permission).resultIn t = .ok c ∧
      ArtifactsMade g e c t t Kind.all (g.opening e.name permission m) w₁ u₁ ∧
      (registerAll g e.name c builtIn w₁).Ends u₁ (.ok w₂) u₂ ∧ RegisteredAll g builtIn w₁ u₁ w₂ u₂ ∧
      ManifestStep g manifest w₂ u₂ (.ok w₃) u ∧ report = w₃.closing := by
  cases h with | @reported m c w₁ w₂ w₃ u₁ u₂ _ model context made registered listed =>
  have fates := ((ensures_artifacts folders e permission m c t).of_ends made).resolve_right (by simp)
  obtain ⟨w, hw, fates⟩ := fates
  obtain rfl := Except.ok.inj hw
  rw [targets] at registered
  have all := (ensures_registeredAll (List.Subset.refl _) w₁ u₁).of_ends registered w₂ rfl
  have step := (ensures_manifestStage fates.serves all.exporter manifest u₂).of_ends listed
  exact ⟨m, c, w₁, u₁, w₂, u₂, w₃, model, context, fates, registered, all, step, rfl⟩

end EntityScaffold.Run
