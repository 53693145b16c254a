import EntityScaffold.Proofs.Run.Isolation
import EntityScaffold.Proofs.SharedFile.Imports

/-
What the imports of the shared files lead to after a run. Each leads to the place of its artifact just where the
artifact's folder leads to the one that is built in; and a run that reports has made every artifact or has an error for
it.
-/

namespace EntityScaffold.Run

open Artifact (Kind FileRecord outputPath)
open FileTree (Change climb)
open Naming (Identifier AddressPrefix)
open SharedFile (Target Import builtIn entityContext importedBy registry)

variable {g : Generator} {t u : FileTree} {k : Kind} {ks : List Kind} {w w₁ : Progress} {ts : List Target}
variable {target : Target} {is : List Import} {i : Import} {e : Identifier} {entity permission : Text}
variable {context : Template.Context} {manifest : Option Path} {made written : Set Location}

section Settled

/-- A report that holds all that another one holds of files and errors. -/
structure Report.Within (r r' : Report) : Prop where
  files : r.files ⊆ r'.files
  errors : r.errors ⊆ r'.errors

theorem Report.Within.refl (r : Report) : r.Within r := ⟨List.Subset.refl _, List.Subset.refl _⟩

theorem Report.Within.trans {r r' r'' : Report} (h : r.Within r') (h' : r'.Within r'') : r.Within r'' :=
  ⟨List.Subset.trans h.files h'.files, List.Subset.trans h.errors h'.errors⟩

/-- What has become of a kind: its file is recorded and stands in its place, unless nothing is written at all, or an
error names the kind. -/
inductive Settled (g : Generator) (entity : Text) (k : Kind) (report : Report) (u : FileTree) : Prop
  | made {r : FileRecord} (listed : r ∈ report.files) (kind : r.kind = k.name)
      (path : r.path = (outputPath g.settings.folders k entity).text) (written : r.written = !g.dryRun)
      (there : g.dryRun = false → ∃ octets, u.get? (u.locationOf (g.artifactPath entity k)) = some (.file octets))
  | missed {m : Text} (listed : m ∈ report.errors) (named : k.name ++ ": ".toList <+: m)

theorem Settled.later {r r' : Report} (h : Settled g entity k r t) (within : r.Within r')
    (change : Change made written t u) : Settled g entity k r' u := by
  cases h with
  | made listed kind path written there =>
    refine .made (within.files listed) kind path written fun real => ?_
    obtain ⟨octets, file⟩ := there real
    rw [change.locationOf]
    exact change.file_stays file
  | missed listed named => exact .missed (within.errors listed) named

theorem ArtifactStep.settled (step : ArtifactStep g entity context w k t (.ok w₁) u) :
    w.report.Within w₁.report ∧ Settled g entity k w₁.report u := by
  cases step with
  | made found dry real =>
    constructor
    · exact ⟨List.subset_append_left _ _, List.Subset.refl _⟩
    · refine .made (List.mem_append_right _ List.mem_cons_self) rfl rfl rfl fun hreal => ?_
      obtain ⟨n, written⟩ := real hreal
      cases written with | written _ change _ there =>
      rw [change.locationOf]
      exact ⟨_, there⟩
  | unread lost =>
    constructor
    · exact ⟨List.Subset.refl _, List.subset_append_left _ _⟩
    · exact .missed (List.mem_append_right _ List.mem_cons_self) (List.prefix_append _ _)
  | unwritten found real refused =>
    constructor
    · exact ⟨List.Subset.refl _, List.subset_append_left _ _⟩
    · exact .missed (List.mem_append_right _ List.mem_cons_self) (List.prefix_append _ _)

theorem ensures_settled (h : w.Serves g ks) (nodup : ks.Nodup) (t : FileTree) :
    (makeArtifacts g.settings.folders entity context ks w).Ensures t fun r u => ∀ w', r = .ok w' →
      w'.Serves g [] ∧ w.report.Within w'.report ∧ Change Set.univ Set.univ t u ∧
        ∀ k ∈ ks, Settled g entity k w'.report u := by
  induction ks generalizing w t with
  | nil =>
    refine Job.ensures_pure ?_
    rintro w' ⟨⟩
    exact ⟨h, .refl _, .refl _ _ _, by simp⟩
  | cons k ks ih =>
    obtain ⟨hk, nodup⟩ := List.nodup_cons.1 nodup
    refine (ensures_makeArtifact h t).bind ?_ (by rintro f u - w' ⟨⟩)
    intro w₁ t₁ step
    obtain ⟨within₁, settled₁⟩ := step.settled
    refine (ih (step.serves h hk) nodup t₁).mono fun r u rest w' hw' => ?_
    obtain ⟨serves, within, change, settled⟩ := rest w' hw'
    refine ⟨serves, within₁.trans within, step.change_univ.trans change, fun k' hk' => ?_⟩
    rcases List.mem_cons.1 hk' with rfl | hk'
    · exact settled₁.later within change
    · exact settled k' hk'

theorem RegistrationStep.within (step : RegistrationStep g target context w t (.ok w₁) u) :
    w.report.Within w₁.report := by
  cases step with
  | reported => exact ⟨List.Subset.refl _, List.Subset.refl _⟩
  | noted => exact ⟨List.Subset.refl _, List.subset_append_left _ _⟩

theorem ensures_within (g : Generator) (entity : Text) (context : Template.Context) (ts : List Target) (w : Progress)
    (t : FileTree) :
    (registerAll g entity context ts w).Ensures t fun r _ => ∀ w', r = .ok w' → w.report.Within w'.report := by
  induction ts generalizing w t with
  | nil =>
    refine Job.ensures_pure ?_
    rintro w' ⟨⟩
    exact .refl _
  | cons target ts ih =>
    refine (ensures_registerOne g entity context w target t).bind ?_ (by rintro f u - w' ⟨⟩)
    intro w₁ t₁ step
    exact (ih w₁ t₁).mono fun r u rest w' hw' => step.within.trans (rest w' hw')

/-- Whatever the settings are: a run that reports has settled every kind. -/
theorem settled_of_run {w w' : World} {report : Report}
    (run : World.run (g.run entity permission manifest) w = (.ok report, w')) (k : Kind) :
    Settled g entity k report w'.tree := by
  cases (ensures_run g entity permission manifest w.tree).of_run run with
  | @reported m c w₁ w₂ w₃ u₁ u₂ _ model filled made registered listed =>
  have opening := g.opening_serves entity permission m
  obtain ⟨serves, -, -, settled⟩ := (ensures_settled opening Kind.nodup_all _).of_ends made w₁ rfl
  have within := (ensures_within g entity c _ w₁ u₁).of_ends registered w₂ rfl
  obtain ⟨change, -, ends⟩ := (ensures_registerAll g entity c _ w₁ u₁).of_ends registered
  obtain ⟨w₂', hw₂, exporter⟩ := ends.resolve_right (by simp)
  obtain rfl := Except.ok.inj hw₂
  have step := (ensures_manifestStage serves exporter manifest u₂).of_ends listed
  have closed : w₂.report.Within w₃.closing := by
    obtain ⟨files, -, errors, herrors, -⟩ := step.closing
    constructor
    · rw [files]
      exact List.Subset.refl _
    · rw [herrors]
      exact List.subset_append_left _ _
  exact ((settled k k.mem_all).later within change).later closed step.change

end Settled

section Places

open Artifact (fileName_no_slash fileName_not_idle)

theorem locationOf_artifactPath (flat : k.layout.subfolder = none) (e : Identifier) (t : FileTree) :
    t.locationOf (g.artifactPath e.name k) =
      t.locationOf (g.root / Path.ofText (g.settings.folders.of k.layout.family)) ++ [k.layout.fileName e.name] := by
  have file := Path.ofText_of_not_mem (fileName_no_slash k e.no_slash) (fileName_not_idle k e.name)
  have place : outputPath g.settings.folders k e.name =
      Path.ofText (g.settings.folders.of k.layout.family) / ⟨.here, [k.layout.fileName e.name]⟩ := by
    rw [outputPath, flat, file]
  rw [Generator.artifactPath, place, Path.join_assoc rfl, FileTree.locationOf_join rfl]
  exact FileTree.climb_on (Artifact.fileName_ne_up k e.name) _ _

/-- An import leads into the folder that is built in for its kind. -/
theorem locationOf_moduleFile (h : (target, is) ∈ Import.table) (hi : i ∈ is) (e : Identifier) (t : FileTree)
    (root : Path) :
    t.locationOf (root / target.moduleFile (i.moduleName e)) =
      t.locationOf (root / Path.ofText i.kind.layout.family.defaultFolder) ++ [i.kind.layout.fileName e.name] := by
  have fits := Import.fits_of_mem h hi
  have below : target.place.root = .here := (SharedFile.place_source (Import.mem_builtIn_of_mem h)).below
  have folder : (Path.ofText i.kind.layout.family.defaultFolder).root = .here := by
    cases i.kind.layout.family <;> decide
  calc t.locationOf (root / target.moduleFile (i.moduleName e))
    _ = climb (t.locationOf root)
          (target.place.parent.parts ++ ((Path.ofText i.folder).parts ++ [i.kind.layout.fileName e.name])) := by
        rw [fits.moduleFile_eq]
        exact FileTree.locationOf_join below
    _ = climb (climb (t.locationOf root) (FileTree.collapse (target.place.parent.parts ++ (Path.ofText i.folder).parts)))
          [i.kind.layout.fileName e.name] := by
        rw [← List.append_assoc, FileTree.climb_append, FileTree.climb_collapse]
    _ = climb (t.locationOf (root / Path.ofText i.kind.layout.family.defaultFolder))
          [i.kind.layout.fileName e.name] := by
        rw [fits.folder, FileTree.locationOf_join folder]
    _ = _ := FileTree.climb_on (Artifact.fileName_ne_up i.kind e.name) _ _

end Places

/-- What holds of a module that a shared file imports: it is the artifact's file just where the artifact's folder leads to
the one that is built in, and a run that reports has made the artifact or has an error for it. -/
structure Imported (g : Generator) (e : Identifier) (target : Target) (k : Kind) (m : Text) : Prop where
  place : ∀ t : FileTree, t.locationOf (g.root / target.moduleFile m) = t.locationOf (g.artifactPath e.name k) ↔
    t.locationOf (g.root / Path.ofText (g.settings.folders.of k.layout.family)) =
      t.locationOf (g.root / Path.ofText k.layout.family.defaultFolder)
  settled : ∀ permission manifest w w' report, World.run (g.run e.name permission manifest) w = (.ok report, w') →
    Settled g e.name k report w'.tree

/-- The imports of the built-in shared files, for all settings and all entities. -/
theorem imports_of_run (g : Generator) (e : Identifier) (p : AddressPrefix) (rest : Template.Context)
    (mem : target ∈ builtIn) :
    ∃ kinds, (target, kinds) ∈ importedBy ∧
      List.Forall₂ (Imported g e target) kinds (target.imports (entityContext e.name p.text ++ rest)) := by
  have rows : Import.table.map Prod.fst = builtIn ∧
      Import.table.map (fun row => (row.1, row.2.map Import.kind)) = importedBy := ⟨rfl, rfl⟩
  obtain ⟨⟨target, is⟩, h, rfl⟩ := List.mem_map.1 (rows.1 ▸ mem)
  refine ⟨is.map Import.kind, ?_, ?_⟩
  · rw [← rows.2]
    exact List.mem_map_of_mem h
  · rw [Import.imports_of_mem h, List.forall₂_map_left_iff, List.forall₂_map_right_iff, List.forall₂_same]
    intro i hi
    constructor
    · intro t
      rw [locationOf_moduleFile h hi, locationOf_artifactPath (Import.fits_of_mem h hi).flat, List.append_left_inj,
        eq_comm]
    · intro permission manifest w w' report run
      exact settled_of_run run i.kind

def registryWorld (kinds : List Kind) : World :=
  sampleWorld kinds ["src".toList, "src/config".toList]
    [("src/config/inversifyConfig.ts".toList,
      Utf8.encode "const container = new Container();\nexport default container;\n".toList)]

def controllerModule : Text := "../controllers/widgetController".toList

def placed (g : Generator) (w : World) : Option Node :=
  w.tree.get? (w.tree.locationOf (g.root / registry.moduleFile controllerModule))

theorem imports_registry : registry.imports (entityContext widget.name apiPrefix.text ++ []) =
    [controllerModule, "../services/widgetService".toList] :=
  (Import.imports_of_mem List.mem_cons_self widget apiPrefix []).trans (by decide)

theorem imports_of_run_registry :
    ∃ report w', World.run (sample.run widget.name "Widget".toList none) (sampleWorld [.controller] [] []) =
        (.ok report, w') ∧ Settled sample widget.name .controller report w'.tree ∧
      ∀ t : FileTree, t.locationOf (sample.root / registry.moduleFile controllerModule) =
        t.locationOf (sample.artifactPath widget.name .controller) := by
  have reports : (World.run (sample.run widget.name "Widget".toList none)
      (sampleWorld [.controller] [] [])).1.toOption.map (fun _ => ()) = some () := by decide +kernel
  obtain ⟨report, run, -⟩ := Job.run_eq_ok reports
  obtain ⟨kinds, row, all⟩ := @imports_of_run registry sample widget apiPrefix [] List.mem_cons_self
  have only : ∀ row ∈ importedBy, row.1 = registry → row.2 = [.controller, .service] := by decide +kernel
  obtain rfl := only _ row rfl
  rw [imports_registry] at all
  cases all with | cons controller others =>
  exact ⟨report, _, run, controller.settled _ _ _ _ _ run, fun t => (controller.place t).2 rfl⟩

def elsewhere : Generator :=
  { sample with settings := { sample.settings with folders := { controllers := "app/controllers".toList } } }

/-- Where the controllers go elsewhere, or where the controller fails, a run registers a controller in a file that is not
there. -/
theorem registered_unwritten :
    controllerModule ∈ registry.imports (entityContext widget.name apiPrefix.text ++ []) ∧
    (∃ report w', World.run (elsewhere.run widget.name "Widget".toList none) (registryWorld Kind.all) =
        (.ok report, w') ∧ report.errors = [] ∧ report.registrations.map (·.applied) = [true, false, false] ∧
      placed elsewhere w' = none) ∧
    ∃ report w', World.run (sample.run widget.name "Widget".toList none) (registryWorld []) = (.ok report, w') ∧
      report.registrations.map (·.applied) = [true, false, false] ∧
      placed sample w' = none := by
  refine ⟨imports_registry ▸ List.mem_cons_self, ?_, ?_⟩
  · have outcome :
        (World.run (elsewhere.run widget.name "Widget".toList none) (registryWorld Kind.all)).1.toOption.map
          (fun r => (r.errors, r.registrations.map (·.applied))) = some ([], [true, false, false]) ∧
        placed elsewhere (World.run (elsewhere.run widget.name "Widget".toList none) (registryWorld Kind.all)).2 =
          none := by
      decide +kernel
    obtain ⟨reports, missing⟩ := outcome
    obtain ⟨report, run, facts⟩ := Job.run_eq_ok reports
    obtain ⟨silent, applied⟩ := Prod.mk.inj facts
    exact ⟨report, _, run, silent, applied, missing⟩
  · have outcome :
        (World.run (sample.run widget.name "Widget".toList none) (registryWorld [])).1.toOption.map
          (fun r => r.registrations.map (·.applied)) = some [true, false, false] ∧
        placed sample (World.run (sample.run widget.name "Widget".toList none) (registryWorld [])).2 = none := by
      decide +kernel
    obtain ⟨reports, missing⟩ := outcome
    obtain ⟨report, run, applied⟩ := Job.run_eq_ok reports
    exact ⟨report, _, run, applied, missing⟩

end EntityScaffold.Run
