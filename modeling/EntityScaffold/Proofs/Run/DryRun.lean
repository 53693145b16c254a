import EntityScaffold.Proofs.Run.Endings
import EntityScaffold.Proofs.Run.Session
import EntityScaffold.Proofs.Run.Sightings

/-
A dry run leaves the tree as it is, and tells what the real run would do: that one changes nothing that it comes to look
at later.
-/

namespace EntityScaffold.Run

open Artifact (Kind)
open FileTree (Change SourceChange)
open Naming (Identifier)
open SharedFile (Target builtIn)

variable {g : Generator} {t t₀ u : FileTree} {entity permission : Text} {manifest : Option Path} {e : Identifier}
variable {c : Template.Context} {w w' v : Progress} {ts : List Target}

theorem ensures_manifestStage_dry (dry : g.dryRun = true) (manifest : Option Path) (w : Progress) (t : FileTree) :
    (manifestStage g manifest w).Ensures t fun r u => r = .ok w ∧ u = t := by
  unfold manifestStage
  cases manifest with
  | none => exact Job.ensures_pure ⟨rfl, rfl⟩
  | some p =>
    dsimp only
    rw [if_pos dry]
    exact Job.ensures_pure ⟨rfl, rfl⟩

theorem RunEnds.tree_of_dry {r : Except Failure Report} (dry : g.dryRun = true)
    (h : RunEnds g entity permission manifest t r u) : u = t := by
  have making {m : Schema.Model} {c : Template.Context} {r : Except Failure Progress} {u : FileTree}
      (made : (makeArtifacts g.settings.folders entity c Kind.all (g.opening entity permission m)).Ends t r u) : u = t :=
    ((ensures_makeArtifacts (g.opening_serves entity permission m) Kind.nodup_all t).of_ends made).2.1 dry
  have registering {c : Template.Context} {w : Progress} {r : Except Failure Progress} {t u : FileTree}
      (registered : (registerAll g entity c g.settings.sharedFiles w).Ends t r u) : u = t :=
    ((ensures_registerAll g entity c _ w t).of_ends registered).2.1 dry
  have listing {w : Progress} {r : Except Failure Progress} {t u : FileTree}
      (listed : (manifestStage g manifest w).Ends t r u) : u = t :=
    ((ensures_manifestStage_dry dry manifest w t).of_ends listed).2
  cases h with
  | unmodelled => rfl
  | unfilled => rfl
  | unmade _ _ made => exact making made
  | unregistered _ _ made registered => exact (registering registered).trans (making made)
  | unlisted _ _ made registered listed => exact (listing listed).trans ((registering registered).trans (making made))
  | reported _ _ made registered listed =>
    exact (listing listed).trans ((registering registered).trans (making made))

/-- Dry progress that tells what the real one reports. -/
structure Foretells (dry real : Progress) : Prop where
  files : dry.report.files = real.report.files.map fun r => { r with written := false }
  registrations : dry.report.registrations = real.report.registrations
  warnings : dry.report.warnings = real.report.warnings
  errors : dry.report.errors = []

def Generator.dry (g : Generator) : Generator := { g with dryRun := true }

theorem Foretells.withRegistrations (told : Foretells v w) (rs : List SharedFile.Registration) :
    Foretells (v.withRegistrations rs) (w.withRegistrations rs) := by
  induction rs generalizing v w with
  | nil => exact told
  | cons r rs ih =>
    have next : Foretells (v.withRegistration r) (w.withRegistration r) := by
      refine ⟨told.files, ?_, ?_, told.errors⟩
      · simp only [Progress.withRegistration, told.registrations]
      · simp only [Progress.withRegistration, told.warnings]
    exact ih next

section Predicts

open Classical

/-- A dry run of the artifacts tells what the real one makes, where that makes all of them. -/
theorem ArtifactsMade.foretells {m : Schema.Model} {w₁ v₁ : Progress} {u₁ v : FileTree}
    (real : ArtifactsMade g e c t t Kind.all (g.opening e.name permission m) w₁ u₁)
    (dry : ArtifactsMade g.dry e c t t Kind.all (g.dry.opening e.name permission m) v₁ v)
    (silent : w₁.report.errors = []) : Foretells v₁ w₁ := by
  have makes := real.makes_of_silent silent
  have dryMakes (k : Kind) : g.dry.Makes e.name t k := ⟨(makes k).1, fun h => absurd h (by simp [Generator.dry])⟩
  have all : Kind.all.filter (g.Makes e.name t) = Kind.all :=
    List.filter_eq_self.2 fun k _ => by simpa using makes k
  have dryAll : Kind.all.filter (g.dry.Makes e.name t) = Kind.all :=
    List.filter_eq_self.2 fun k _ => by simpa using dryMakes k
  constructor
  · rw [real.files, dry.files, all, dryAll, List.map_append, List.map_map]
    rfl
  · rw [real.report, dry.report]
    rfl
  · rw [real.report, dry.report]
    rfl
  · exact dry.silent_of_makes fun k _ => dryMakes k

theorem dry_not_nullAt (found : ∀ k, ∃ x, templateIn g.templateFolder t k = .ok x) (k : Kind) :
    ¬ g.dry.NullAt entity k := by
  rintro (⟨p, hp, hnull⟩ | ⟨real, -⟩)
  · obtain ⟨x, hx⟩ := found k
    rw [show g.templateFolder = some p from hp] at hx
    obtain ⟨octets, hread, -⟩ := textAt_ok_iff.1 (templateIn_ok_iff.1 hx)
    exact (FileTree.read_eq_ok_iff.1 hread).1.null hnull
  · exact absurd real (by simp [Generator.dry])

theorem dry_artifacts_foretold {m : Schema.Model} {w₁ : Progress} {u₁ : FileTree} (folders : g.settings.folders = {})
    (made : ArtifactsMade g e c t t Kind.all (g.opening e.name permission m) w₁ u₁)
    (silent : w₁.report.errors = []) :
    (makeArtifacts g.dry.settings.folders e.name c Kind.all (g.dry.opening e.name permission m)).Ensures t
      fun r u => ∃ v, r = .ok v ∧ u = t ∧ Foretells v w₁ := by
  have dryFolders : g.dry.settings.folders = {} := folders
  refine (ensures_artifacts dryFolders e permission m c t).mono ?_
  rintro r u (⟨v, rfl, dry⟩ | ⟨-, k, null⟩)
  · exact ⟨v, rfl, dry.dry rfl, made.foretells dry silent⟩
  · exact absurd null (dry_not_nullAt (fun k => (made.makes_of_silent silent k).1) k)

/-- From the same tree: where the real run reports no errors, the dry run reports the same. -/
theorem RunEnds.foretold {report : Report} (folders : g.settings.folders = {})
    (targets : g.settings.sharedFiles = builtIn) (closed : t.IsClosed) (rooted : t.IsRooted g.root)
    (real : RunEnds g e.name permission manifest t (.ok report) u) (silent : report.errors = []) :
    (g.dry.run e.name permission manifest).Ensures t fun r _ => ∃ told : Report, r = .ok told ∧
      told.files = report.files.map (fun r => { r with written := false }) ∧
      told.registrations = report.registrations ∧ told.warnings = report.warnings ∧
      told.success = report.success := by
  obtain ⟨m, c, w₁, u₁, w₂, u₂, w₃, model, filled, made, registering, registered, step, rfl⟩ :=
    real.reported_cases folders targets
  obtain ⟨shared, hshared, -⟩ := registered.errors
  have last : w₃ = w₂ := by
    cases step with
    | skipped => rfl
    | written => rfl
    | noted => exact absurd silent (by simp [Progress.closing, Progress.withError])
  subst last
  have silent₂ : w₃.report.errors = [] := silent
  have silent₁ : w₁.report.errors = [] := (List.append_eq_nil_iff.1 (hshared.symm.trans silent₂)).1
  obtain ⟨seen, hw₃⟩ := registerAll_seen closed rooted (List.Subset.refl _) SharedFile.nodup_builtIn made.change
    (fun _ mem => place_not_mem_places mem) registering silent₂
  have dryModel : (g.dry.model e.name).resultIn t = .ok m := model
  have dryContext : (g.dry.context m permission).resultIn t = .ok c := filled
  have told : (g.dry.run e.name permission manifest).Ensures t fun r u =>
      ∃ v, r = .ok v.closing ∧ u = t ∧ Foretells v w₃ := by
    refine ensures_run_of_stages _ (fun v u => u = t ∧ Foretells v w₃) _ dryModel dryContext
      (dry_artifacts_foretold folders made silent₁) ?_ ?_
    · rintro v₁ u ⟨rfl, told⟩
      have dryTargets : g.dry.settings.sharedFiles = builtIn := targets
      have seenDry : ∀ target ∈ builtIn, ∃ s, sharedAt u (g.dry.root / target.place) = .ok s := seen
      have same : g.dry.reportIn c u = g.reportIn c u := rfl
      have dry : g.dry.dryRun = true := rfl
      rw [dryTargets]
      refine (ensures_registerAll_dry dry seenDry v₁).mono ?_
      rintro r x ⟨rfl, rfl⟩
      refine ⟨_, rfl, rfl, ?_⟩
      rw [same, hw₃]
      exact told.withRegistrations _
    · rintro v₂ u ⟨rfl, told⟩
      refine (ensures_manifestStage_dry rfl manifest v₂ u).mono ?_
      rintro r x ⟨rfl, rfl⟩
      exact ⟨v₂, rfl, rfl, told⟩
  refine told.mono ?_
  rintro r u ⟨v, rfl, -, told⟩
  refine ⟨_, rfl, told.files, told.registrations, told.warnings, ?_⟩
  simp only [Progress.closing, told.errors, silent₂]

/-- A dry run leaves the tree as it is. From a tree that shows the root, it reports what the real run does, where that
reports no errors. -/
theorem foretold_of_run (g : Generator) :
    (∀ entity permission manifest w, (World.run (g.dry.run entity permission manifest) w).2.tree = w.tree) ∧
      (g.settings.folders = {} → g.settings.sharedFiles = builtIn →
        ∀ (e : Identifier) permission manifest w w' report, w.tree.IsClosed → w.tree.IsRooted g.root →
          World.run (g.run e.name permission manifest) w = (.ok report, w') → report.errors = [] →
          ∃ told w'', World.run (g.dry.run e.name permission manifest) w = (.ok told, w'') ∧
            told.files = report.files.map (fun r => { r with written := false }) ∧
            told.registrations = report.registrations ∧ told.warnings = report.warnings ∧
            told.success = report.success) := by
  constructor
  · intro entity permission manifest w
    exact (ensures_run g.dry entity permission manifest w.tree w rfl).tree_of_dry rfl
  · intro folders targets e permission manifest w w' report closed rooted run silent
    have real := (ensures_run g e.name permission manifest w.tree).of_run run
    obtain ⟨told, htold, same⟩ := real.foretold folders targets closed rooted silent w rfl
    exact ⟨told, _, Prod.ext htold rfl, same⟩

def routedWorld : World :=
  sampleWorld Kind.all ["src".toList, "src/routes".toList]
    [("src/routes/v1.ts".toList, Utf8.encode "const router = Router();\nexport default router;\n".toList)]

theorem isClosed_routedWorld : routedWorld.tree.IsClosed := .of_nodes (by decide)

theorem foretold_of_run_sample :
    ∃ report w' told w'', World.run (sample.run widget.name "Widget".toList none) routedWorld = (.ok report, w') ∧
      report.errors = [] ∧ World.run (sample.dry.run widget.name "Widget".toList none) routedWorld = (.ok told, w'') ∧
      w''.tree = routedWorld.tree ∧ told.registrations = report.registrations := by
  have reports : (World.run (sample.run widget.name "Widget".toList none) routedWorld).1.toOption.map Report.errors =
      some [] := by decide +kernel
  obtain ⟨report, run, silent⟩ := Job.run_eq_ok reports
  have rooted : routedWorld.tree.IsRooted sample.root := fun up => absurd up (by decide +kernel)
  obtain ⟨told, w'', dry, -, same, -, -⟩ := (foretold_of_run sample).2 rfl rfl widget "Widget".toList none
    routedWorld _ report isClosed_routedWorld rooted run silent
  have stays := (foretold_of_run sample).1 widget.name "Widget".toList none routedWorld
  rw [dry] at stays
  exact ⟨report, _, told, w'', run, silent, dry, stays, same⟩

/-- A project whose root leads through a folder that is not there, and out of it again. -/
def climbing : Generator where
  settings := {
    projectRoot := "new/..".toList
    schemaPath := "/work/db/prisma/schema.prisma".toList
    templatesFolder := some "/work/templates".toList }

/-- The real run makes the missing folder and finds the router, and the dry run does not. -/
theorem climbing_not_foretold :
    ∃ report w' told w'', World.run (climbing.run widget.name "Widget".toList none) routedWorld = (.ok report, w') ∧
      report.errors = [] ∧
      World.run (climbing.dry.run widget.name "Widget".toList none) routedWorld = (.ok told, w'') ∧
      told.registrations.map (·.applied) ≠ report.registrations.map (·.applied) := by
  have reports : (World.run (climbing.run widget.name "Widget".toList none) routedWorld).1.toOption.map
      (fun r => (r.errors, r.registrations.map (·.applied))) = some ([], [false, true, false]) := by decide +kernel
  have tells : (World.run (climbing.dry.run widget.name "Widget".toList none) routedWorld).1.toOption.map
      (fun r => r.registrations.map (·.applied)) = some [false, false, false] := by decide +kernel
  obtain ⟨report, run, facts⟩ := Job.run_eq_ok reports
  obtain ⟨told, dry, none_⟩ := Job.run_eq_ok tells
  obtain ⟨silent, applied⟩ := Prod.mk.inj facts
  refine ⟨report, _, told, _, run, silent, dry, ?_⟩
  rw [none_, applied]
  decide

end Predicts

end EntityScaffold.Run
