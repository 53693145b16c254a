import EntityScaffold.Proofs.Job.Unattended
import EntityScaffold.Proofs.Run.Generation

/-
A run of the generator asks nobody for a name, from its first request to its last.
-/

namespace EntityScaffold.Run

open Artifact (Kind)
open SharedFile (Target)
open Job

variable {g : Generator} {entity permission : Text} {context : Template.Context}

theorem unattended_readText (p : Path) : (readText p).Unattended :=
  (unattended_read p).bind fun _ => asks_ofExcept _

theorem unattended_unlessFolder (p : Path) (f : Failure) : (unlessFolder p f).Unattended := by
  unfold unlessFolder
  split
  · refine (unattended_look p).bind fun sight => ?_
    cases sight with
    | folder => exact asks_pure ()
    | _ => exact asks_failed f
  · exact asks_failed f

theorem unattended_makeFolderOnce (p : Path) : (makeFolderOnce p).Unattended := by
  unfold makeFolderOnce
  refine (unattended_makeFolder p).attempt.bind fun r => ?_
  cases r with
  | ok made => exact asks_pure ()
  | error f =>
    dsimp only
    split
    · exact asks_failed f
    · exact unattended_unlessFolder p f

theorem unattended_makeFolders (n : Nat) (p : Path) : (makeFolders n p).Unattended := by
  induction n generalizing p with
  | zero => exact unattended_makeFolderOnce p
  | succ n ih =>
    unfold makeFolders
    refine (unattended_makeFolder p).attempt.bind fun r => ?_
    cases r with
    | ok made => exact asks_pure ()
    | error f =>
      dsimp only
      split
      · exact (ih p.parent).bind fun _ => unattended_makeFolderOnce p
      · exact unattended_unlessFolder p f

theorem unattended_replaceFile (p : Path) (octets : Octets) : (replaceFile p octets).Unattended := by
  unfold replaceFile
  refine (unattended_temporary p).bind fun place => ?_
  have moved : (do Job.fill place octets; let _ ← Job.look p; Job.move place p : Job Unit).Unattended :=
    (unattended_fill place octets).bind fun _ => (unattended_look p).bind fun _ => unattended_move place p
  refine moved.attempt.bind fun r => ?_
  cases r with
  | ok done => exact asks_pure ()
  | error f => exact (unattended_discard place).bind fun _ => asks_failed f

theorem unattended_writeFile (p : Path) (content : Text) (atomic : Bool) : (writeFile p content atomic).Unattended := by
  have ensured : (ensureFolder p.parent).Unattended :=
    (unattended_makeFolders _ _).bind fun _ => unattended_note _
  unfold writeFile
  refine ensured.bind fun _ => ?_
  cases atomic with
  | true => exact (unattended_replaceFile p _).bind fun _ => (unattended_note _).bind fun _ => asks_pure _
  | false => exact (unattended_write p _).bind fun _ => (unattended_note _).bind fun _ => asks_pure _

theorem unattended_readTemplate (e : Engine) (k : Kind) : (e.readTemplate k).Unattended := by
  have alike : (e.readTemplate k).Asks (Request.Alike .empty .empty) :=
    asks_readTemplate e k fun _ _ => rfl
  exact alike.unattended

theorem unattended_render (e : Engine) (k : Kind) (context : Template.Context) :
    (e.render k context).Unattended := by
  have loaded : (e.load k).Unattended := by
    unfold Engine.load
    split
    · exact asks_pure _
    · exact (unattended_readTemplate e k).bind fun _ => asks_pure _
  exact loaded.bind fun _ => (unattended_notes _).bind fun _ => asks_pure _

theorem unattended_deliver (x : Exporter) (kind : Text) (path : Path) (content : Text) :
    (x.deliver kind path content).Unattended := by
  obtain ⟨root, atomic, dry, manifest⟩ := x
  unfold Exporter.deliver
  cases dry with
  | true => exact (unattended_note _).bind fun _ => asks_pure _
  | false => exact (unattended_writeFile _ _ _).bind fun _ => (unattended_note _).bind fun _ => asks_pure _

theorem unattended_fail (w : Progress) (message : Text) : (w.fail message).Unattended :=
  (unattended_note _).bind fun _ => asks_pure _

theorem unattended_makeArtifact (folders : Artifact.Folders) (w : Progress) (k : Kind) :
    (makeArtifact folders entity context w k).Unattended := by
  unfold makeArtifact
  refine (unattended_render w.engine k context).attempt.bind fun r => ?_
  cases r with
  | error f =>
    dsimp only
    split
    · exact unattended_fail w _
    · exact asks_failed f
  | ok rendered =>
    refine (unattended_deliver _ _ _ _).attempt.bind fun r => ?_
    cases r with
    | error f =>
      dsimp only
      split
      · exact unattended_fail _ _
      · exact asks_failed f
    | ok delivered => exact asks_pure _

theorem unattended_makeArtifacts (folders : Artifact.Folders) (ks : List Kind) (w : Progress) :
    (makeArtifacts folders entity context ks w).Unattended := by
  induction ks generalizing w with
  | nil => exact asks_pure w
  | cons k ks ih => exact (unattended_makeArtifact folders w k).bind ih

theorem unattended_register (root : Path) (dryRun : Bool) (target : Target) :
    (register root dryRun target entity context).Unattended := by
  unfold register
  dsimp only
  refine (unattended_look _).bind fun sight => ?_
  cases sight with
  | nothing => exact (unattended_note _).bind fun _ => asks_pure _
  | folder => exact (unattended_note _).bind fun _ => asks_pure _
  | file =>
    refine (unattended_readText _).bind fun content => ?_
    cases target.register context content with
    | registered => exact (unattended_note _).bind fun _ => asks_pure _
    | spliced s =>
      refine (unattended_notes _).bind fun _ => ?_
      split
      · exact (unattended_writeFile _ _ _).bind fun _ => (unattended_note _).bind fun _ => asks_pure _
      · exact (unattended_note _).bind fun _ => asks_pure _

theorem unattended_registerOne (w : Progress) (target : Target) :
    (registerOne g entity context w target).Unattended := by
  unfold registerOne
  refine (unattended_register _ _ _).attempt.bind fun r => ?_
  cases r with
  | error f =>
    dsimp only
    split
    · exact unattended_fail w _
    · exact asks_failed f
  | ok registration => exact asks_pure _

theorem unattended_registerAll (ts : List Target) (w : Progress) :
    (registerAll g entity context ts w).Unattended := by
  induction ts generalizing w with
  | nil => exact asks_pure w
  | cons target ts ih => exact (unattended_registerOne w target).bind ih

theorem unattended_manifestStage (manifest : Option Path) (w : Progress) :
    (manifestStage g manifest w).Unattended := by
  unfold manifestStage
  cases manifest with
  | none => exact asks_pure w
  | some p =>
    have writing : (w.exporter.writeManifest p).Unattended :=
      (unattended_writeFile _ _ _).bind fun _ => unattended_note _
    dsimp only
    split
    · exact asks_pure w
    · refine writing.attempt.bind fun r => ?_
      cases r with
      | ok written => exact asks_pure w
      | error f =>
        dsimp only
        split
        · exact unattended_fail w _
        · exact asks_failed f

theorem unattended_run (g : Generator) (entity permission : Text) (manifest : Option Path) :
    (g.run entity permission manifest).Unattended := by
  have model : (g.model entity).Asks (Request.Alike .empty .empty) :=
    asks_model rfl rfl
  have filled (m : Schema.Model) :
      (g.context m permission).Asks (Request.Alike .empty .empty) :=
    asks_context m
  have making (c : Template.Context) (report : Report) : (artifactStage g entity c report).Unattended := by
    unfold artifactStage Engine.start
    refine Asks.bind ((unattended_note _).bind fun _ => asks_pure _) fun engine => ?_
    exact (unattended_makeArtifacts _ _ _).bind fun _ => (unattended_note _).bind fun _ => asks_pure _
  unfold Generator.run
  refine unattended_time.bind fun _ => (Asks.timed _ model.unattended).bind fun m => ?_
  refine (filled m).unattended.bind fun c => (Asks.timed _ (making c _)).bind fun w => ?_
  refine (Asks.timed _ (unattended_registerAll _ w)).bind fun w => ?_
  exact (unattended_manifestStage manifest w).bind fun _ => unattended_time.bind fun _ => asks_pure _

end EntityScaffold.Run
