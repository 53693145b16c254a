import EntityScaffold.Proofs.Run.Generation

/-
All ways in which a run can end, by what its tree and its settings are at the start.
-/

namespace EntityScaffold.Run

open Artifact (Kind)
open FileTree (Change)

variable {g : Generator} {t u : FileTree} {entity permission : Text} {manifest : Option Path}

/-- The ways in which a run can end: with a report where the entity's model is read, or without one and with the tree
untouched, or stopped on the way by a null character in a path or by a shared file that was no text before the run. -/
inductive Ending (g : Generator) (entity : Text) (manifest : Option Path) (t : FileTree) :
    Except Failure Report → FileTree → Prop
  | reported {m : Schema.Model} (model : (g.model entity).resultIn t = .ok m) (r : Report) (u : FileTree) :
      Ending g entity manifest t (.ok r) u
  | schema {f : Failure} (model : (g.model entity).resultIn t = .error f) (ofSchema : f.isOfSchema = true) :
      Ending g entity manifest t (.error f) t
  | schemaRefused {r : FileTree.Refusal} (model : (g.model entity).resultIn t = .error (.refused r))
      (look : t.look g.schemaPath = .error r) : Ending g entity manifest t (.error (.refused r)) t
  | numberTooLong {m : Schema.Model} {f : Schema.Field} (model : (g.model entity).resultIn t = .ok m)
      (editable : f ∈ m.editable g.settings.systemFields)
      (long : RequestChecks.isWritable g.settings.maxLength f = false) :
      Ending g entity manifest t (.error .numberTooLong) t
  | nullInPath {u : FileTree}
      (null : (∃ k, g.NullAt entity k) ∨
        ∃ p ∈ manifest, g.dryRun = false ∧ '\x00' ∈ (g.manifestPath p).text) :
      Ending g entity manifest t (.error (.refused .nullInPath)) u
  | undecodable {target : SharedFile.Target} {octets : Octets} {fault : Utf8.Fault} {u : FileTree}
      (shared : target ∈ g.settings.sharedFiles)
      (file : t.get? (t.locationOf (g.root / target.place)) = some (.file octets))
      (flaw : Utf8.decode octets = .error fault) : Ending g entity manifest t (.error (.undecodable fault)) u

theorem RunEnds.ending {r : Except Failure Report} (named : entity ≠ [])
    (h : RunEnds g entity permission manifest t r u) : Ending g entity manifest t r u := by
  have making {m : Schema.Model} {c : Template.Context} {r : Except Failure Progress} {u : FileTree}
      (made : (makeArtifacts g.settings.folders entity c Kind.all (g.opening entity permission m)).Ends t r u) :=
    (ensures_makeArtifacts (g.opening_serves entity permission m) Kind.nodup_all t).of_ends made
  cases h with
  | unmodelled model =>
    rcases model_error model with ofSchema | ⟨refusal, look, rfl⟩ | empty
    · exact .schema model ofSchema
    · exact .schemaRefused model look
    · exact absurd empty named
  | unfilled model context =>
    obtain ⟨-, ⟨rest, hr⟩ | ⟨hr, f, editable, long⟩⟩ := (ensures_context g _ permission t).resultIn
    · rw [context] at hr
      exact absurd hr (by simp)
    · rw [context] at hr
      rw [Except.error.inj hr]
      exact .numberTooLong model editable long
  | unmade _ _ made =>
    obtain ⟨-, -, ⟨w', hw', -⟩ | ⟨hf, null⟩⟩ := making made
    · exact absurd hw' (by simp)
    · rw [Except.error.inj hf]
      exact .nullInPath (Or.inl null)
  | unregistered _ _ made registered =>
    obtain ⟨change, -, -⟩ := making made
    obtain ⟨-, -, ⟨w', hw', -⟩ | ⟨target, shared, octets, fault, file, flaw, hf⟩⟩ :=
      (ensures_registerAll g entity _ _ _ _).of_ends registered
    · exact absurd hw' (by simp)
    · rw [Except.error.inj hf]
      rw [change.locationOf] at file
      rcases change.file_cases file with before | ⟨text, rfl⟩
      · exact .undecodable shared before flaw
      · rw [Utf8.decode_encode] at flaw
        exact absurd flaw (by simp)
  | unlisted _ _ made registered listed =>
    obtain ⟨-, -, ⟨w₁, hw₁, serves⟩ | ⟨hf, -⟩⟩ := making made
    · obtain rfl := Except.ok.inj hw₁
      obtain ⟨-, -, ⟨w₂, hw₂, exporter⟩ | ⟨target, -, octets, fault, -, -, hf⟩⟩ :=
        (ensures_registerAll g entity _ _ _ _).of_ends registered
      · obtain rfl := Except.ok.inj hw₂
        cases (ensures_manifestStage serves exporter manifest _).of_ends listed with | stopped h real null _ =>
        exact .nullInPath (Or.inr ⟨_, h, real, null⟩)
      · exact absurd hf (by simp)
    · exact absurd hf (by simp)
  | reported model => exact .reported model _ _

/-- However the tree and the settings are: the ways in which a run for a named entity can end. -/
theorem ending_of_run (g : Generator) (permission : Text) (manifest : Option Path) (w : World) (named : entity ≠ []) :
    Ending g entity manifest w.tree (World.run (g.run entity permission manifest) w).1
      (World.run (g.run entity permission manifest) w).2.tree :=
  (ensures_run g entity permission manifest w.tree w rfl).ending named

section Samples

def workTree (folders : List Text) (files : List (Text × Octets)) : FileTree where
  nodes := (["work".toList], .folder) ::
    (folders.map (fun p => ("work".toList :: (Path.ofText p).parts, .folder)) ++
      files.map fun (p, content) => ("work".toList :: (Path.ofText p).parts, .file content))
  work := ["work".toList]

/-- A world with a schema of one model, with empty templates for some kinds, and with some more folders and files. -/
def sampleWorld (kinds : List Kind) (folders : List Text) (files : List (Text × Octets)) : World where
  tree := workTree (["db".toList, "db/prisma".toList, "templates".toList] ++ folders)
    (("db/prisma/schema.prisma".toList, Utf8.encode "model Widget \x7b\n  id Int\n\x7d\n".toList) ::
      (kinds.map (fun k => ("templates/".toList ++ k.layout.template, [])) ++ files))

/-- The built-in settings, with templates from a folder of the project. -/
def sample : Generator := { settings := { templatesFolder := some "templates".toList } }

instance decidableEqExcept {ε α : Type} [DecidableEq ε] [DecidableEq α] : DecidableEq (Except ε α)
  | .ok a, .ok b => decidable_of_iff (a = b) ⟨congrArg _, Except.ok.inj⟩
  | .error f, .error f' => decidable_of_iff (f = f') ⟨congrArg _, Except.error.inj⟩
  | .ok _, .error _ => isFalse nofun
  | .error _, .ok _ => isFalse nofun

def brokenRegistry : World :=
  sampleWorld [.model] ["src".toList, "src/config".toList] [("src/config/inversifyConfig.ts".toList, [255])]

theorem ending_of_run_brokenRegistry :
    Ending sample "Widget".toList none brokenRegistry.tree
      (World.run (sample.run "Widget".toList "Widget".toList none) brokenRegistry).1
      (World.run (sample.run "Widget".toList "Widget".toList none) brokenRegistry).2.tree :=
  ending_of_run sample "Widget".toList none brokenRegistry (by decide)

/-- A registry that is no text stops the run when an artifact is written already. -/
theorem stopped_after_writing :
    ∃ f w', World.run (sample.run "Widget".toList "Widget".toList none) brokenRegistry = (.error f, w') ∧
      f.isOfSchema = false ∧
      brokenRegistry.tree.get? ["work".toList, "src".toList, "models".toList, "Widget.ts".toList] = none ∧
      w'.tree.get? ["work".toList, "src".toList, "models".toList, "Widget.ts".toList] = some (.file []) := by
  have ends : ((World.run (sample.run "Widget".toList "Widget".toList none) brokenRegistry).1,
      (World.run (sample.run "Widget".toList "Widget".toList none) brokenRegistry).2.tree.get?
        ["work".toList, "src".toList, "models".toList, "Widget.ts".toList]) =
      (.error (.undecodable ⟨0, [255], .badStart⟩), some (.file [])) := by decide +kernel
  obtain ⟨stopped, written⟩ := Prod.mk.inj ends
  exact ⟨_, _, Prod.ext stopped rfl, rfl, by decide +kernel, written⟩

end Samples

end EntityScaffold.Run
