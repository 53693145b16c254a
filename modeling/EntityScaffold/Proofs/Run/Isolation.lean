import EntityScaffold.Proofs.Run.Endings
import EntityScaffold.Proofs.Run.Session
import EntityScaffold.Proofs.Text.LineCount

/-
Artifacts are made apart from each other: what becomes of one is decided by the tree before the run, whatever becomes
of the others, and the records of a report describe the files that the run leaves.
-/

namespace EntityScaffold.Run

open Artifact (Kind)
open FileTree (Change SourceChange)
open Naming (Identifier)
open SharedFile (builtIn)
open Template (substitute)

variable {g : Generator} {t u v : FileTree} {k : Kind} {entity permission : Text} {manifest : Option Path}
variable {e : Identifier} {w : Progress} {context : Template.Context}

/-- A tree shows the template of a kind, and a file can be written in it where the artifact goes. -/
def Generator.CanMake (g : Generator) (entity : Text) (t : FileTree) (k : Kind) : Prop :=
  (∃ x, templateIn g.templateFolder t k = .ok x) ∧
    ∃ n, (writeFile (g.artifactPath entity k) [] true).resultIn t = .ok n

theorem accepts_iff_writeFile {p : Path} {content : Text} :
    t.Accepts p ↔ ∃ n, (writeFile p content true).resultIn t = .ok n := by
  obtain ⟨u, written⟩ := (ensures_writeFile t p content).resultIn
  generalize (writeFile p content true).resultIn t = r at written
  cases written with
  | written accepts _ _ _ => exact ⟨fun _ => ⟨_, rfl⟩, fun _ => accepts⟩
  | refused _ shut _ => exact ⟨fun accepts => absurd accepts shut, by rintro ⟨n, ⟨⟩⟩⟩

theorem Generator.makes_iff (real : g.dryRun = false) : g.Makes entity t k ↔ g.CanMake entity t k := by
  rw [Generator.Makes, Generator.CanMake, ← accepts_iff_writeFile]
  exact and_congr_right fun _ => ⟨fun h => h real, fun h _ => h⟩

def Generator.manifestWay (g : Generator) (manifest : Option Path) (t : FileTree) : Set Location :=
  {l | ∃ p ∈ manifest, l ∈ t.passedBy (g.manifestPath p).parent}

def Generator.manifestPlace (g : Generator) (manifest : Option Path) (t : FileTree) : Set Location :=
  {l | ∃ p ∈ manifest, l = t.locationOf (g.manifestPath p)}

theorem ManifestStep.change {r : Except Failure Progress} (h : ManifestStep g manifest w t r u) :
    Change (g.manifestWay manifest t) (g.manifestPlace manifest t) t u := by
  have sub {p : Path} (hp : manifest = some p) {files : Set Location}
      (hfiles : files ⊆ {t.locationOf (g.manifestPath p)})
      (change : Change {l | l ∈ t.passedBy (g.manifestPath p).parent} files t u) :
      Change (g.manifestWay manifest t) (g.manifestPlace manifest t) t u := by
    refine change.mono (fun l hl => ⟨p, hp, hl⟩) fun l hl => ⟨p, hp, hfiles hl⟩
  cases h with
  | skipped => exact .refl _ _ _
  | written hp _ written =>
    cases written with | written _ change _ _ =>
    exact sub hp (le_refl _) change
  | noted hp _ refused =>
    cases refused with | refused change _ _ =>
    exact sub hp (Set.empty_subset _) change
  | stopped hp _ _ refused =>
    cases refused with | refused change _ _ =>
    exact sub hp (Set.empty_subset _) change

open Classical in
/-- A report accounts for all artifacts: by the tree before the run, and by the files that the run leaves. -/
structure Accounts (g : Generator) (e : Identifier) (context : Template.Context) (manifest : Option Path)
    (t u : FileTree) (report : Report) : Prop where
  made : report.files.map (·.kind) = (Kind.all.filter (g.CanMake e.name t)).map Kind.name
  failed : ∃ artifacts others, report.errors = artifacts ++ others ∧
    List.Forall₂ (fun k m => k.name ++ ": ".toList <+: m)
      (Kind.all.filter fun k => ¬ g.CanMake e.name t k) artifacts ∧
    ∀ m ∈ others, (∃ target ∈ builtIn, target.filePath ++ ": ".toList <+: m) ∨ "Manifest: ".toList <+: m
  listed : report.manifest.files = report.files
  held : ∀ r ∈ report.files, ∃ k x octets, r.kind = k.name ∧ Path.ofText r.path = Artifact.outputPath {} k e.name ∧
    templateIn g.templateFolder t k = .ok x ∧ octets = Utf8.encode (substitute x context) ∧
    u.read (g.root / Path.ofText r.path) = .ok octets ∧ r.bytes = octets.length ∧
    r.lines = Text.lineCount 10 octets ∧ r.digest = (Digest.ofOctets octets).flatMap Utf8.hexOctet
  kept : ∀ k, ¬ g.CanMake e.name t k →
    u.get? (t.locationOf (g.artifactPath e.name k)) = t.get? (t.locationOf (g.artifactPath e.name k)) ∨
      (t.get? (t.locationOf (g.artifactPath e.name k)) = none ∧
        u.get? (t.locationOf (g.artifactPath e.name k)) = some .folder ∧
        (t.locationOf (g.artifactPath e.name k) ∈ t.passedBy g.root ∨
          ∃ p ∈ manifest, t.locationOf (g.artifactPath e.name k) ∈ t.passedBy (g.manifestPath p).parent))

section Accounts

open Classical

variable {t u₁ u₂ : FileTree} {w₀ w₁ w₂ w₃ : Progress}

theorem ManifestStep.closing (h : ManifestStep g manifest w t (.ok w₃) u) :
    w₃.closing.files = w.report.files ∧ w₃.closing.manifest = w.exporter.manifest ∧
      ∃ errors, w₃.closing.errors = w.report.errors ++ errors ∧ ∀ m ∈ errors, "Manifest: ".toList <+: m := by
  cases h with
  | skipped => exact ⟨rfl, rfl, [], by simp [Progress.closing], by simp⟩
  | written => exact ⟨rfl, rfl, [], by simp [Progress.closing], by simp⟩
  | @noted p content f => exact ⟨rfl, rfl, ["Manifest: ".toList ++ f.message], rfl, by simp⟩

theorem artifact_kept (made : ArtifactsMade g e context t t Kind.all w₀ w₁ u₁)
    (shared : SourceChange g.root (sharedPlaces builtIn) u₁ u₂) (step : ManifestStep g manifest w₂ u₂ (.ok w₃) u)
    (folders : g.settings.folders = {}) (real : g.dryRun = false)
    (apart : ∀ p ∈ manifest, t.locationOf (g.manifestPath p) ≠ t.locationOf (g.artifactPath e.name k))
    (makes : g.Makes e.name t k) :
    u.read (g.artifactPath e.name k) = .ok (Utf8.encode (g.content context t k)) := by
  obtain ⟨file, way⟩ := made.there real k k.mem_all makes
  have accepts := makes.2 real
  have source : (Artifact.outputPath {} k e.name).IsSource := Artifact.outputPath_source k e
  have path : g.artifactPath e.name k = g.root / Artifact.outputPath {} k e.name := g.artifactPath_eq folders e.name k
  have offShared : t.locationOf (g.artifactPath e.name k) ∉ u₁.sources g.root (sharedPlaces builtIn) := by
    rw [path, ← made.change.locationOf]
    refine FileTree.locationOf_not_mem_sources source ?_
    rintro ⟨target, mem, heq⟩
    exact SharedFile.place_ne_outputPath mem k e heq.symm
  have offManifest : t.locationOf (g.artifactPath e.name k) ∉ g.manifestPlace manifest u₂ := by
    rintro ⟨p, hp, heq⟩
    rw [shared.locationOf, made.change.locationOf] at heq
    exact apart p hp heq.symm
  refine FileTree.read_eq_ok_iff.2 ⟨accepts.fits, accepts.named, ?_, ?_⟩
  · rw [step.change.passedBy, shared.passedBy, made.change.passedBy]
    exact fun l hl => step.change.folder (shared.folder (way l hl))
  · rw [step.change.locationOf, shared.locationOf, made.change.locationOf]
    exact (step.change.file_iff offManifest).2 ((shared.file_iff offShared).2 file)

/-- Where no manifest goes: what stands in the place of an artifact that is not made stays, or was nothing and is a
folder now on the way of the root or of the manifest. -/
theorem place_kept (made : ArtifactsMade g e context t t Kind.all w₀ w₁ u₁)
    (shared : SourceChange g.root (sharedPlaces builtIn) u₁ u₂)
    (step : ManifestStep g manifest w₂ u₂ (.ok w₃) u) (folders : g.settings.folders = {})
    (apart : ∀ p ∈ manifest, t.locationOf (g.manifestPath p) ≠ t.locationOf (g.artifactPath e.name k))
    (misses : ¬ g.Makes e.name t k) :
    u.get? (t.locationOf (g.artifactPath e.name k)) = t.get? (t.locationOf (g.artifactPath e.name k)) ∨
      (t.get? (t.locationOf (g.artifactPath e.name k)) = none ∧
        u.get? (t.locationOf (g.artifactPath e.name k)) = some .folder ∧
        (t.locationOf (g.artifactPath e.name k) ∈ t.passedBy g.root ∨
          ∃ p ∈ manifest, t.locationOf (g.artifactPath e.name k) ∈ t.passedBy (g.manifestPath p).parent)) := by
  have source : (Artifact.outputPath {} k e.name).IsSource := Artifact.outputPath_source k e
  have path : g.artifactPath e.name k = g.root / Artifact.outputPath {} k e.name := g.artifactPath_eq folders e.name k
  have change := made.change.trans shared
  have before : u₂.get? (t.locationOf (g.artifactPath e.name k)) = t.get? (t.locationOf (g.artifactPath e.name k)) ∨
      (t.get? (t.locationOf (g.artifactPath e.name k)) = none ∧
        u₂.get? (t.locationOf (g.artifactPath e.name k)) = some .folder ∧
        t.locationOf (g.artifactPath e.name k) ∈ t.passedBy g.root) := by
    rcases change.nodes (t.locationOf (g.artifactPath e.name k)) with
      same | ⟨⟨q, hq, hl⟩, missing, folder⟩ | ⟨hl, -⟩
    · exact Or.inl same
    · rw [path] at hl missing folder ⊢
      exact Or.inr ⟨missing, folder, FileTree.passedBy_root_of_mem source hq hl⟩
    · rw [path] at hl
      refine absurd hl (FileTree.locationOf_not_mem_sources source ?_)
      rintro (hm | ⟨target, mem, heq⟩)
      · exact not_mem_places (by simpa using fun _ => misses) hm
      · exact SharedFile.place_ne_outputPath mem k e heq.symm
  rcases step.change.nodes (t.locationOf (g.artifactPath e.name k)) with
    same | ⟨⟨p, hp, hl⟩, missing, folder⟩ | ⟨⟨p, hp, heq⟩, -⟩
  · rw [same]
    exact before.imp_right fun ⟨missing, folder, way⟩ => ⟨missing, folder, Or.inl way⟩
  · rw [change.passedBy] at hl
    rcases before with same | ⟨-, folder', -⟩
    · exact Or.inr ⟨same ▸ missing, folder, Or.inr ⟨p, hp, hl⟩⟩
    · rw [missing] at folder'
      exact absurd folder' (by simp)
  · rw [change.locationOf] at heq
    exact absurd heq.symm (apart p hp)

/-- Whatever fails in a run that reports: each artifact is made or not as the tree before the run has it, and the report
accounts for all of them. -/
theorem accounts_of_run {w w' : World} {report : Report} (folders : g.settings.folders = {})
    (targets : g.settings.sharedFiles = builtIn) (real : g.dryRun = false)
    (apart : ∀ p ∈ manifest, ∀ k,
      w.tree.locationOf (g.manifestPath p) ≠ w.tree.locationOf (g.artifactPath e.name k))
    (run : World.run (g.run e.name permission manifest) w = (.ok report, w')) :
    ∃ m context, (g.model e.name).resultIn w.tree = .ok m ∧ (g.context m permission).resultIn w.tree = .ok context ∧
      Accounts g e context manifest w.tree w'.tree report := by
  obtain ⟨m, context, w₁, u₁, w₂, u₂, w₃, model, filled, made, -, registered, step, rfl⟩ :=
    ((ensures_run g e.name permission manifest w.tree).of_run run).reported_cases folders targets
  refine ⟨m, context, model, filled, ?_⟩
  obtain ⟨files, listed, errors, herrors, manifestErrors⟩ := step.closing
  obtain ⟨shared, hshared, sharedErrors⟩ := registered.errors
  obtain ⟨artifacts, hartifacts, names⟩ := made.errors
  have makes : g.Makes e.name w.tree = g.CanMake e.name w.tree := funext fun k => propext (g.makes_iff real)
  have records : w₃.closing.files =
      (Kind.all.filter (g.Makes e.name w.tree)).map fun k => g.record e.name k (g.content context w.tree k) := by
    rw [files, registered.files, made.files]
    rfl
  constructor
  · rw [records, makes, List.map_map]
    rfl
  · refine ⟨artifacts, shared ++ errors, ?_, ?_, ?_⟩
    · rw [herrors, hshared, hartifacts, List.append_assoc]
      rfl
    · rw [← makes]
      exact names
    · intro m hm
      rcases List.mem_append.1 hm with hm | hm
      · exact Or.inl (sharedErrors m hm)
      · exact Or.inr (manifestErrors m hm)
  · rw [records, listed, registered.exporter, made.manifest]
    rfl
  · intro r hr
    rw [records] at hr
    obtain ⟨k, hk, rfl⟩ := List.mem_map.1 hr
    have made_ : g.Makes e.name w.tree k := by simpa using (List.mem_filter.1 hk).2
    obtain ⟨x, found⟩ := made_.1
    have kept := artifact_kept made registered.change step folders real (fun p hp => apart p hp k) made_
    have place : Path.ofText (g.record e.name k (g.content context w.tree k)).path = Artifact.outputPath {} k e.name := by
      rw [← Artifact.outputPath_of_text k e, Generator.record, folders]
      rfl
    refine ⟨k, x, _, rfl, place, found, rfl, ?_, ?_, ?_, ?_⟩
    · rw [place, ← g.artifactPath_eq folders, kept, g.content_eq found]
    · rw [← g.content_eq found]
      rfl
    · rw [← g.content_eq found, Utf8.lineCount_encode]
      rfl
    · rw [← g.content_eq found]
      rfl
  · intro k misses
    exact place_kept made registered.change step folders (fun p hp => apart p hp k) (mt (g.makes_iff real).1 misses)

def oneTemplate : World := sampleWorld [.model] [] []

def noTemplate : World := sampleWorld [] [] []

theorem accounts_of_run_sample :
    ∃ report w' m context,
      World.run (sample.run widget.name "Widget".toList (some (Path.ofText "manifest.json".toList))) oneTemplate =
        (.ok report, w') ∧
      (sample.model widget.name).resultIn oneTemplate.tree = .ok m ∧
      (sample.context m "Widget".toList).resultIn oneTemplate.tree = .ok context ∧
      Accounts sample widget context (some (Path.ofText "manifest.json".toList)) oneTemplate.tree w'.tree report := by
  have reports : (World.run (sample.run widget.name "Widget".toList (some (Path.ofText "manifest.json".toList)))
      oneTemplate).1.toOption.map (fun _ => ()) = some () := by decide +kernel
  obtain ⟨report, run, -⟩ := Job.run_eq_ok reports
  have checks : ∀ k ∈ Kind.all,
      oneTemplate.tree.locationOf (sample.manifestPath (Path.ofText "manifest.json".toList)) ≠
        oneTemplate.tree.locationOf (sample.artifactPath widget.name k) := by decide +kernel
  have apart : ∀ p ∈ some (Path.ofText "manifest.json".toList), ∀ k,
      oneTemplate.tree.locationOf (sample.manifestPath p) ≠
        oneTemplate.tree.locationOf (sample.artifactPath widget.name k) := by
    rintro p ⟨⟩ k
    exact checks k k.mem_all
  obtain ⟨m, context, model, filled, accounts⟩ := accounts_of_run rfl rfl rfl apart run
  exact ⟨report, _, m, context, run, model, filled, accounts⟩

/-- A manifest below the place of an artifact. -/
def misplaced : Path := Path.ofText "src/models/Widget.ts/manifest.json".toList

/-- Where the artifact fails, a folder is made in its place on the way of the manifest. -/
theorem folder_at_failed_place :
    ∃ report w', World.run (sample.run widget.name "Widget".toList (some misplaced)) noTemplate = (.ok report, w') ∧
      (∀ k, noTemplate.tree.locationOf (sample.manifestPath misplaced) ≠
        noTemplate.tree.locationOf (sample.artifactPath widget.name k)) ∧
      (∀ target ∈ builtIn, noTemplate.tree.locationOf (sample.manifestPath misplaced) ≠
        noTemplate.tree.locationOf (sample.root / target.place)) ∧
      ¬ sample.CanMake widget.name noTemplate.tree .model ∧
      noTemplate.tree.look (sample.artifactPath widget.name .model) = .ok .nothing ∧
      w'.tree.look (sample.artifactPath widget.name .model) = .ok .folder := by
  have reports : (World.run (sample.run widget.name "Widget".toList (some misplaced)) noTemplate).1.toOption.map
      (fun _ => ()) = some () := by decide +kernel
  obtain ⟨report, run, -⟩ := Job.run_eq_ok reports
  have checks : ∀ k ∈ Kind.all, noTemplate.tree.locationOf (sample.manifestPath misplaced) ≠
      noTemplate.tree.locationOf (sample.artifactPath widget.name k) := by decide +kernel
  have unread : (templateIn sample.templateFolder noTemplate.tree .model).toOption = none := by decide +kernel
  refine ⟨report, _, run, fun k => checks k k.mem_all, by decide +kernel, ?_, by decide +kernel, by decide +kernel⟩
  rintro ⟨⟨x, hx⟩, -⟩
  rw [hx] at unread
  exact absurd unread (by simp [Except.toOption])

end Accounts

end EntityScaffold.Run
