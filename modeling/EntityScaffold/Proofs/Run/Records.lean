import EntityScaffold.Proofs.Run.Generation

/-
Which artifacts a report records, wherever they go. A run that reports comes to every kind once, and each kind leaves
either a record or an error.
-/

namespace EntityScaffold.Run

open Artifact (Kind)
open SharedFile (Target)

variable {g : Generator} {t u : FileTree} {entity permission : Text} {manifest : Option Path}
variable {context : Template.Context} {w w₁ w' : Progress} {k : Kind} {ks : List Kind}

def Generator.records (g : Generator) (entity : Text) (made : List (Kind × Text)) : List Artifact.FileRecord :=
  made.map fun m => g.record entity m.1 m.2

/-- Of some kinds, those that are made are recorded in order, and each of the others is an error. -/
def Recorded (g : Generator) (entity : Text) (ks : List Kind) (w w' : Progress) : Prop :=
  ∃ (made : List (Kind × Text)) (errors : List Text),
    w'.report.files = w.report.files ++ g.records entity made ∧ w'.report.errors = w.report.errors ++ errors ∧
      (made.map Prod.fst).Sublist ks ∧ made.length + errors.length = ks.length

theorem Recorded.made_of_silent (recorded : Recorded g entity ks w w') (silent : w'.report.errors = []) :
    ∃ made : List (Kind × Text), made.map Prod.fst = ks ∧
      w'.report.files = w.report.files ++ g.records entity made := by
  obtain ⟨made, errors, files, herrors, sub, count⟩ := recorded
  obtain ⟨-, rfl⟩ := List.append_eq_nil_iff.1 (herrors.symm.trans silent)
  exact ⟨made, sub.eq_of_length (by simpa using count), files⟩

theorem Recorded.cons (step : ArtifactStep g entity context w k t (.ok w₁) u) (rest : Recorded g entity ks w₁ w') :
    Recorded g entity (k :: ks) w w' := by
  obtain ⟨made, errors, files, herrors, sub, count⟩ := rest
  cases step with
  | @made x _ found dry real =>
    refine ⟨(k, Template.substitute x context) :: made, errors, ?_, herrors, sub.cons_cons k, ?_⟩
    · rw [files]
      simp [Progress.withRecord, Progress.withTemplate, Generator.records]
    · simp only [List.length_cons]
      omega
  | @unread f lost =>
    refine ⟨made, (k.name ++ ": ".toList ++ f.message) :: errors, files, ?_, sub.cons k, ?_⟩
    · rw [herrors]
      simp [Progress.withError]
    · simp only [List.length_cons]
      omega
  | @unwritten x f _ found real refused =>
    refine ⟨made, (k.name ++ ": ".toList ++ f.message) :: errors, files, ?_, sub.cons k, ?_⟩
    · rw [herrors]
      simp [Progress.withError, Progress.withTemplate]
    · simp only [List.length_cons]
      omega

theorem ensures_recorded (h : w.Serves g ks) (nodup : ks.Nodup) (t : FileTree) :
    (makeArtifacts g.settings.folders entity context ks w).Ensures t fun r _ =>
      ∀ w', r = .ok w' → Recorded g entity ks w w' := by
  induction ks generalizing w t with
  | nil =>
    refine Job.ensures_pure ?_
    rintro w' ⟨⟩
    exact ⟨[], [], by simp [Generator.records], by simp, List.Sublist.refl _, rfl⟩
  | cons k ks ih =>
    obtain ⟨hk, nodup⟩ := List.nodup_cons.1 nodup
    refine (ensures_makeArtifact h t).bind ?_ (by rintro f u - w' ⟨⟩)
    intro w₁ t₁ step
    exact (ih (step.serves h hk) nodup t₁).mono fun r u rest w' hw' => .cons step (rest w' hw')

/-- Later progress that has recorded nothing more, and no error less. -/
structure Progress.Settles (w w' : Progress) : Prop where
  files : w'.report.files = w.report.files
  errors : w.report.errors <+: w'.report.errors

theorem Progress.Settles.refl (w : Progress) : w.Settles w := ⟨rfl, List.prefix_rfl⟩

theorem Progress.Settles.trans (h : w.Settles w₁) (h' : w₁.Settles w') : w.Settles w' :=
  ⟨h'.files.trans h.files, h.errors.trans h'.errors⟩

theorem Progress.Settles.withError (w : Progress) (message : Text) : w.Settles (w.withError message) :=
  ⟨rfl, List.prefix_append _ _⟩

theorem ensures_settles_registerAll (ts : List Target) (w : Progress) (t : FileTree) :
    (registerAll g entity context ts w).Ensures t fun r _ => ∀ w', r = .ok w' → w.Settles w' := by
  induction ts generalizing w t with
  | nil =>
    refine Job.ensures_pure ?_
    rintro w' ⟨⟩
    exact .refl w
  | cons target ts ih =>
    refine (ensures_registerOne g entity context w target t).bind ?_ (by rintro f u - w' ⟨⟩)
    intro w₁ t₁ step
    have first : w.Settles w₁ := by
      cases step with
      | reported => exact ⟨rfl, List.prefix_rfl⟩
      | noted => exact .withError w _
    exact (ih w₁ t₁).mono fun r u rest w' hw' => first.trans (rest w' hw')

theorem ensures_settles_manifestStage (manifest : Option Path) (w : Progress) (t : FileTree) :
    (manifestStage g manifest w).Ensures t fun r _ => ∀ w', r = .ok w' → w.Settles w' := by
  have idle (t : FileTree) : (pure w : Job Progress).Ensures t fun r _ => ∀ w', r = .ok w' → w.Settles w' := by
    refine Job.ensures_pure ?_
    rintro w' ⟨⟩
    exact .refl w
  unfold manifestStage
  cases manifest with
  | none => exact idle t
  | some p =>
    dsimp only
    split
    · exact idle t
    · refine (Job.ensures_ends t _).attempt fun r u _ => ?_
      cases r with
      | ok => exact idle u
      | error f =>
        dsimp only
        split
        · refine ensures_fail _ ?_
          rintro w' ⟨⟩
          exact .withError w _
        · exact Job.ensures_failed (by rintro w' ⟨⟩)

theorem RunEnds.success {report : Report} (h : RunEnds g entity permission manifest t (.ok report) u) :
    report.success = report.errors.isEmpty := by
  cases h
  rfl

theorem RunEnds.records {report : Report} (h : RunEnds g entity permission manifest t (.ok report) u)
    (silent : report.errors = []) :
    ∃ made : List (Kind × Text), made.map Prod.fst = Kind.all ∧ report.files = g.records entity made := by
  cases h with | @reported m c w₁ w₂ w₃ u₁ u₂ _ model context made registered listed =>
  have recorded := (ensures_recorded (g.opening_serves entity permission m) Kind.nodup_all t).of_ends made w₁ rfl
  have registering := (ensures_settles_registerAll _ w₁ u₁).of_ends registered w₂ rfl
  have settles := registering.trans ((ensures_settles_manifestStage manifest w₂ u₂).of_ends listed w₃ rfl)
  have silent₁ : w₁.report.errors = [] := List.prefix_nil.1 (silent ▸ settles.errors)
  obtain ⟨records, kinds, files⟩ := recorded.made_of_silent silent₁
  refine ⟨records, kinds, ?_⟩
  rw [← List.nil_append (g.records entity records)]
  exact settles.files.trans files

end EntityScaffold.Run
