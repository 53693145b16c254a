import EntityScaffold.Proofs.Run.Templates
import EntityScaffold.Run.Generation

/-
What becomes of the artifacts of a run. A kind is made just when the tree shows its template and accepts its file at
the start, whatever becomes of the other kinds.
-/

namespace EntityScaffold.Run

open Artifact (Kind FileRecord)
open FileTree (Change SourceChange)
open Naming (Identifier)
open Template (substitute)

variable {g : Generator} {t t₀ u : FileTree} {k : Kind} {ks : List Kind} {w w' : Progress}
variable {context : Template.Context} {entity : Text}

namespace Generator

/-- The folder that a generator takes its templates from, unless it takes the packaged ones. -/
def templateFolder (g : Generator) : Option Path := Engine.folderOf g.settings g.templates

def artifactPath (g : Generator) (entity : Text) (k : Kind) : Path :=
  g.root / Artifact.outputPath g.settings.folders k entity

def record (g : Generator) (entity : Text) (k : Kind) (content : Text) : FileRecord :=
  .ofContent k.name (Artifact.outputPath g.settings.folders k entity) content (!g.dryRun)

/-- A null character in one of the paths that an artifact needs. -/
def NullAt (g : Generator) (entity : Text) (k : Kind) : Prop :=
  (∃ p ∈ g.templateFolder, '\x00' ∈ (templatePath p k).text) ∨
    (g.dryRun = false ∧ '\x00' ∈ (g.artifactPath entity k).text)

end Generator

namespace Progress

def withError (w : Progress) (message : Text) : Progress :=
  { w with report := { w.report with errors := w.report.errors ++ [message] } }

def withTemplate (w : Progress) (k : Kind) (x : Text) : Progress := { w with engine := w.engine.keep k x }

def withRecord (w : Progress) (r : FileRecord) : Progress :=
  { w with
    exporter := { w.exporter with manifest := w.exporter.manifest.add r }
    report := { w.report with files := w.report.files ++ [r] } }

/-- Progress of a generator that has not come to some kinds yet. -/
structure Serves (g : Generator) (ks : List Kind) (w : Progress) : Prop where
  folder : w.engine.folder = g.templateFolder
  root : w.exporter.root = g.root
  atomic : w.exporter.atomic = true
  dryRun : w.exporter.dryRun = g.dryRun
  fresh : ∀ k ∈ ks, Entries.get? k w.engine.templates = none

theorem Serves.tail (h : w.Serves g (k :: ks)) : w.Serves g ks :=
  ⟨h.folder, h.root, h.atomic, h.dryRun, fun k' hk' => h.fresh k' (List.mem_cons_of_mem _ hk')⟩

theorem Serves.withError (h : w.Serves g ks) (message : Text) : (w.withError message).Serves g ks :=
  ⟨h.folder, h.root, h.atomic, h.dryRun, h.fresh⟩

theorem Serves.withRecord (h : w.Serves g ks) (r : FileRecord) : (w.withRecord r).Serves g ks :=
  ⟨h.folder, h.root, h.atomic, h.dryRun, h.fresh⟩

theorem Serves.withTemplate (h : w.Serves g ks) (hk : k ∉ ks) (x : Text) : (w.withTemplate k x).Serves g ks := by
  refine ⟨h.folder, h.root, h.atomic, h.dryRun, fun k' hk' => ?_⟩
  have ne : k' ≠ k := fun he => hk (he ▸ hk')
  exact (Entries.get?_put_of_ne ne _ _).trans (h.fresh k' hk')

end Progress

theorem ensures_fail {post : Except Failure Progress → FileTree → Prop} (message : Text)
    (h : post (.ok (w.withError message)) t) : (w.fail message).Ensures t post :=
  Job.ensures_note (Job.ensures_pure h)

/-- How a file is delivered: it is written, or nothing is to be written, or it is refused. -/
inductive Delivered (x : Exporter) (kind : Text) (path : Path) (content : Text) (t : FileTree) :
    Except Failure (FileRecord × Exporter) → FileTree → Prop
  | delivered {u : FileTree} (dry : x.dryRun = true → u = t)
      (real : x.dryRun = false → ∃ n, TextWritten t (x.root / path) content (.ok n) u) :
      Delivered x kind path content t (.ok (.ofContent kind path content (!x.dryRun),
        { x with manifest := x.manifest.add (.ofContent kind path content (!x.dryRun)) })) u
  | refused {f : Failure} {u : FileTree} (real : x.dryRun = false)
      (refused : TextWritten t (x.root / path) content (.error f) u) : Delivered x kind path content t (.error f) u

theorem ensures_deliver {x : Exporter} (atomic : x.atomic = true) (kind : Text) (path : Path) (content : Text)
    (t : FileTree) : (x.deliver kind path content).Ensures t (Delivered x kind path content t) := by
  obtain ⟨root, _, dry, manifest⟩ := x
  obtain rfl := atomic
  unfold Exporter.deliver
  cases dry with
  | false =>
    refine (ensures_writeFile t (root / path) content).bind ?_ fun f u refused => .refused rfl refused
    intro n u written
    exact Job.ensures_note (Job.ensures_pure (.delivered (by simp) fun _ => ⟨n, written⟩))
  | true => exact Job.ensures_note (Job.ensures_pure (.delivered (fun _ => rfl) (by simp)))

/-- What becomes of one artifact. -/
inductive ArtifactStep (g : Generator) (entity : Text) (context : Template.Context) (w : Progress) (k : Kind)
    (t : FileTree) : Except Failure Progress → FileTree → Prop
  | made {x : Text} {u : FileTree} (found : templateIn g.templateFolder t k = .ok x) (dry : g.dryRun = true → u = t)
      (real : g.dryRun = false → ∃ n, TextWritten t (g.artifactPath entity k) (substitute x context) (.ok n) u) :
      ArtifactStep g entity context w k t
        (.ok ((w.withTemplate k x).withRecord (g.record entity k (substitute x context)))) u
  | unread {f : Failure} (lost : templateIn g.templateFolder t k = .error f) :
      ArtifactStep g entity context w k t (.ok (w.withError (k.name ++ ": ".toList ++ f.message))) t
  | unwritten {x : Text} {f : Failure} {u : FileTree} (found : templateIn g.templateFolder t k = .ok x)
      (real : g.dryRun = false)
      (refused : TextWritten t (g.artifactPath entity k) (substitute x context) (.error f) u) :
      ArtifactStep g entity context w k t
        (.ok ((w.withTemplate k x).withError (k.name ++ ": ".toList ++ f.message))) u
  | stopped {u : FileTree} (null : g.NullAt entity k) (dry : g.dryRun = true → u = t)
      (change : Change Set.univ Set.univ t u) :
      ArtifactStep g entity context w k t (.error (.refused .nullInPath)) u

namespace ArtifactStep

theorem serves {w₁ : Progress} (step : ArtifactStep g entity context w k t (.ok w₁) u) (h : w.Serves g (k :: ks))
    (hk : k ∉ ks) : w₁.Serves g ks := by
  cases step with
  | made => exact (h.tail.withTemplate hk _).withRecord _
  | unread => exact h.tail.withError _
  | unwritten => exact (h.tail.withTemplate hk _).withError _

theorem tree_of_dry {r : Except Failure Progress} (step : ArtifactStep g entity context w k t r u)
    (hdry : g.dryRun = true) : u = t := by
  cases step with
  | made _ dry _ => exact dry hdry
  | unread => rfl
  | unwritten _ real _ => exact absurd (real.symm.trans hdry) (by simp)
  | stopped _ dry _ => exact dry hdry

theorem change_univ {r : Except Failure Progress} (step : ArtifactStep g entity context w k t r u) :
    Change Set.univ Set.univ t u := by
  cases step with
  | made _ dry real =>
    cases hdry : g.dryRun with
    | true =>
      rw [dry hdry]
      exact .refl _ _ _
    | false =>
      obtain ⟨n, written⟩ := real hdry
      exact written.change_univ
  | unread => exact .refl _ _ _
  | unwritten _ _ refused => exact refused.change_univ
  | stopped _ _ change => exact change

end ArtifactStep

theorem ensures_makeArtifact (h : w.Serves g (k :: ks)) (t : FileTree) :
    (makeArtifact g.settings.folders entity context w k).Ensures t (ArtifactStep g entity context w k t) := by
  unfold makeArtifact
  refine (ensures_render w.engine k context t).attempt ?_
  rintro r u ⟨rfl, rfl⟩
  rw [Engine.template_of_fresh (h.fresh k List.mem_cons_self), h.folder]
  cases found : templateIn g.templateFolder u k with
  | error f =>
    dsimp only [Except.map]
    rcases templateIn_error found with ofArtifact | ⟨rfl, null⟩
    · rw [if_pos ofArtifact]
      exact ensures_fail _ (.unread found)
    · exact Job.ensures_failed (.stopped (Or.inl null) (fun _ => rfl) (.refl _ _ _))
  | ok x =>
    dsimp only [Except.map]
    refine (ensures_deliver h.atomic k.name _ (substitute x context) u).attempt ?_
    rintro r v (⟨dry, real⟩ | ⟨real, refused⟩)
    · rw [h.dryRun] at dry real
      rw [h.root] at real
      have step := (ArtifactStep.made found dry real :
        ArtifactStep g entity context w k u _ v)
      rw [Generator.record, ← h.dryRun] at step
      exact Job.ensures_pure step
    · rw [h.dryRun] at real
      rw [h.root] at refused
      rename_i f
      dsimp only
      split
      · exact ensures_fail _ (.unwritten found real refused)
      · next other =>
        have change := refused.change_univ
        cases refused with | refused _ _ refuses =>
        rcases refuses with system | ⟨rfl, null⟩
        · exact absurd (Failure.isOfArtifact_of_isSystem system) other
        · refine Job.ensures_failed (.stopped (Or.inr ⟨real, null⟩) (fun dry => ?_) change)
          exact absurd (real.symm.trans dry) (by simp)

/-- Wherever the artifacts go: nothing but a null character stops the run while they are made. -/
theorem ensures_makeArtifacts (h : w.Serves g ks) (nodup : ks.Nodup) (t : FileTree) :
    (makeArtifacts g.settings.folders entity context ks w).Ensures t fun r u =>
      Change Set.univ Set.univ t u ∧ (g.dryRun = true → u = t) ∧
        ((∃ w', r = .ok w' ∧ w'.Serves g []) ∨
          (r = .error (.refused .nullInPath) ∧ ∃ k, g.NullAt entity k)) := by
  induction ks generalizing w t with
  | nil => exact Job.ensures_pure ⟨.refl _ _ _, fun _ => rfl, Or.inl ⟨w, rfl, h⟩⟩
  | cons k ks ih =>
    obtain ⟨hk, nodup⟩ := List.nodup_cons.1 nodup
    refine (ensures_makeArtifact h t).bind ?_ ?_
    · intro w₁ t₁ step
      refine (ih (step.serves h hk) nodup t₁).mono ?_
      rintro r u ⟨change, dry, ends⟩
      refine ⟨step.change_univ.trans change, fun d => ?_, ends⟩
      rw [dry d, step.tree_of_dry d]
    · rintro f u step
      refine ⟨step.change_univ, step.tree_of_dry, Or.inr ?_⟩
      cases step with | stopped null _ _ => exact ⟨rfl, k, null⟩

section Fates

open Classical

variable {e : Identifier}

/-- The kinds that come about: their template is shown, and their file is accepted. -/
def Generator.Makes (g : Generator) (entity : Text) (t : FileTree) (k : Kind) : Prop :=
  (∃ x, templateIn g.templateFolder t k = .ok x) ∧ (g.dryRun = false → t.Accepts (g.artifactPath entity k))

/-- The content of an artifact: the template that a tree shows, filled. -/
def Generator.content (g : Generator) (context : Template.Context) (t : FileTree) (k : Kind) : Text :=
  substitute ((templateIn g.templateFolder t k).toOption.getD []) context

def places (e : Identifier) (ks : List Kind) : Set Path := {q | ∃ k ∈ ks, q = Artifact.outputPath {} k e.name}

/-- The folder of the templates is there at the start, or the tree is the one from the start. -/
def Generator.Sees (g : Generator) (t₀ t : FileTree) : Prop :=
  t = t₀ ∨ ∀ p ∈ g.templateFolder, ∀ l ∈ t₀.passedBy p, t₀.get? l = some .folder

/-- What becomes of the artifacts of some kinds, as it is decided by the tree from the start. -/
structure ArtifactsMade (g : Generator) (e : Identifier) (context : Template.Context) (t₀ t : FileTree)
    (ks : List Kind) (w w' : Progress) (u : FileTree) : Prop where
  report : w'.report = { w.report with files := w'.report.files, errors := w'.report.errors }
  files : w'.report.files = w.report.files ++
    (ks.filter (g.Makes e.name t₀)).map fun k => g.record e.name k (g.content context t₀ k)
  manifest : w'.exporter.manifest.files = w.exporter.manifest.files ++
    (ks.filter (g.Makes e.name t₀)).map fun k => g.record e.name k (g.content context t₀ k)
  errors : ∃ errors, w'.report.errors = w.report.errors ++ errors ∧
    List.Forall₂ (fun k m => k.name ++ ": ".toList <+: m) (ks.filter fun k => ¬ g.Makes e.name t₀ k) errors
  serves : w'.Serves g []
  change : SourceChange g.root (places e (ks.filter (g.Makes e.name t₀))) t u
  sees : g.Sees t₀ u
  dry : g.dryRun = true → u = t
  there : g.dryRun = false → ∀ k ∈ ks, g.Makes e.name t₀ k →
    u.get? (t₀.locationOf (g.artifactPath e.name k)) = some (.file (Utf8.encode (g.content context t₀ k))) ∧
      ∀ l ∈ t₀.passedBy (g.artifactPath e.name k).parent, u.get? l = some .folder

theorem Generator.Sees.templateIn_ok_iff {files : Set Path} {x : Text} (sees : g.Sees t₀ t)
    (before : SourceChange g.root files t₀ t) :
    templateIn g.templateFolder t k = .ok x ↔ templateIn g.templateFolder t₀ k = .ok x := by
  rcases sees with rfl | folders
  · rfl
  · exact templateIn_ok_iff_of_change before folders

theorem places_mono {ks' : List Kind} (h : ks ⊆ ks') : places e ks ⊆ places e ks' := by
  rintro q ⟨k, hk, rfl⟩
  exact ⟨k, h hk, rfl⟩

theorem Generator.artifactPath_eq (plain : g.settings.folders = {}) (entity : Text) (k : Kind) :
    g.artifactPath entity k = g.root / Artifact.outputPath {} k entity := by
  rw [Generator.artifactPath, plain]

theorem not_mem_places (hk : k ∉ ks) : Artifact.outputPath {} k e.name ∉ places e ks := by
  rintro ⟨k', hk', heq⟩
  exact hk ((Artifact.outputPath_inj heq).1 ▸ hk')

/-- What becomes of one artifact, as it is decided by the tree from the start. -/
inductive Fate (g : Generator) (e : Identifier) (context : Template.Context) (t₀ : FileTree) (w : Progress) (k : Kind)
    (t : FileTree) : Progress → FileTree → Prop
  | made {x : Text} {u : FileTree} (makes : g.Makes e.name t₀ k) (change : SourceChange g.root (places e [k]) t u)
      (dry : g.dryRun = true → u = t)
      (there : g.dryRun = false →
        u.get? (t₀.locationOf (g.artifactPath e.name k)) = some (.file (Utf8.encode (g.content context t₀ k))) ∧
          ∀ l ∈ t₀.passedBy (g.artifactPath e.name k).parent, u.get? l = some .folder) :
      Fate g e context t₀ w k t ((w.withTemplate k x).withRecord (g.record e.name k (g.content context t₀ k))) u
  | missed {w₁ : Progress} {m : Text} {u : FileTree} (misses : ¬ g.Makes e.name t₀ k)
      (report : w₁.report = (w.withError m).report) (exporter : w₁.exporter = w.exporter)
      (named : k.name ++ ": ".toList <+: m) (change : SourceChange g.root ∅ t u) (dry : g.dryRun = true → u = t) :
      Fate g e context t₀ w k t w₁ u

theorem Fate.change {w₁ : Progress} (fate : Fate g e context t₀ w k t w₁ u) :
    SourceChange g.root (places e [k]) t u := by
  cases fate with
  | made _ change _ _ => exact change
  | missed _ _ _ _ change _ => exact change.mono (Set.empty_subset _)

theorem Generator.content_eq {x : Text} (found : templateIn g.templateFolder t k = .ok x) :
    g.content context t k = substitute x context := by
  rw [Generator.content, found]
  rfl

/-- Other files that were written since the start change neither whether an artifact is made nor what it holds. -/
theorem ArtifactStep.fate {w₁ : Progress} {files : Set Path} (step : ArtifactStep g e.name context w k t (.ok w₁) u)
    (plain : g.settings.folders = {}) (before : SourceChange g.root files t₀ t)
    (other : Artifact.outputPath {} k e.name ∉ files) (sees : g.Sees t₀ t) :
    Fate g e context t₀ w k t w₁ u ∧ g.Sees t₀ u := by
  have source : (Artifact.outputPath {} k e.name).IsSource := Artifact.outputPath_source k e
  have path : g.artifactPath e.name k = g.root / Artifact.outputPath {} k e.name :=
    g.artifactPath_eq plain e.name k
  have accepted : t.Accepts (g.artifactPath e.name k) ↔ t₀.Accepts (g.artifactPath e.name k) := by
    rw [path]
    exact before.accepts_iff source other
  have still {x : Text} (found : templateIn g.templateFolder t k = .ok x) : g.Sees t₀ u :=
    Or.inr (folders_of_templateIn ((sees.templateIn_ok_iff before).1 found))
  cases step with
  | @made x _ found dry real =>
    refine ⟨?_, still found⟩
    have found₀ := (sees.templateIn_ok_iff before).1 found
    rw [← g.content_eq found₀] at real ⊢
    refine .made ⟨⟨x, found₀⟩, fun hreal => ?_⟩ ?_ dry fun hreal => ?_
    · obtain ⟨n, written⟩ := real hreal
      cases written with | written accepts _ _ _ =>
      exact accepted.1 accepts
    · cases hdry : g.dryRun with
      | true =>
        rw [dry hdry]
        exact .refl _ _ _
      | false =>
        obtain ⟨n, written⟩ := real hdry
        cases written with | written accepts change _ _ =>
        rw [path] at accepts change
        refine (SourceChange.of_written source accepts change).mono ?_
        rintro q rfl
        exact ⟨k, by simp, rfl⟩
    · obtain ⟨n, written⟩ := real hreal
      cases written with | written _ _ folders there =>
      rw [before.locationOf] at there
      rw [before.passedBy] at folders
      exact ⟨there, folders⟩
  | @unread f lost =>
    refine ⟨.missed ?_ rfl rfl (List.prefix_append _ _) (.refl _ _ _) fun _ => rfl, sees⟩
    rintro ⟨⟨x, found₀⟩, -⟩
    rw [(sees.templateIn_ok_iff before).2 found₀] at lost
    exact absurd lost (by simp)
  | unwritten found real refused =>
    refine ⟨?_, still found⟩
    cases refused with | refused change shut _ =>
    rw [path] at change
    refine .missed ?_ rfl rfl (List.prefix_append _ _) (.of_refused source change ∅) fun dry => ?_
    · exact fun makes => shut (accepted.2 (makes.2 real))
    · exact absurd (real.symm.trans dry) (by simp)

theorem ArtifactsMade.cons {w₁ : Progress} {t₁ : FileTree} {files : Set Path}
    (rest : ArtifactsMade g e context t₀ t₁ ks w₁ w' u) (fate : Fate g e context t₀ w k t w₁ t₁)
    (plain : g.settings.folders = {}) (hk : k ∉ ks) (before : SourceChange g.root files t₀ t₁) :
    ArtifactsMade g e context t₀ t (k :: ks) w w' u := by
  cases fate with
  | made makes change dry there =>
    have kinds : (k :: ks).filter (g.Makes e.name t₀) = k :: ks.filter (g.Makes e.name t₀) :=
      List.filter_cons_of_pos (by simpa using makes)
    have missing :
        (k :: ks).filter (fun k => ¬ g.Makes e.name t₀ k) = ks.filter fun k => ¬ g.Makes e.name t₀ k :=
      List.filter_cons_of_neg (by simpa using makes)
    constructor
    · rw [rest.report]
      rfl
    · rw [rest.files, kinds]
      simp [Progress.withTemplate, Progress.withRecord]
    · rw [rest.manifest, kinds]
      simp [Progress.withTemplate, Progress.withRecord, Artifact.Manifest.add]
    · rw [missing]
      exact rest.errors
    · exact rest.serves
    · rw [kinds]
      refine (change.trans rest.change).mono ?_
      exact Set.union_subset (places_mono (by simp)) (places_mono (List.subset_cons_self _ _))
    · exact rest.sees
    · intro d
      rw [rest.dry d, dry d]
    · intro real k' hk' makes'
      rcases List.mem_cons.1 hk' with rfl | hk'
      · obtain ⟨file, folders⟩ := there real
        have other : Artifact.outputPath {} k' e.name ∉ places e (ks.filter (g.Makes e.name t₀)) :=
          not_mem_places fun hm => hk (List.mem_of_mem_filter hm)
        have off : t₁.locationOf (g.root / Artifact.outputPath {} k' e.name) ∉ t₁.sources g.root _ :=
          FileTree.locationOf_not_mem_sources (Artifact.outputPath_source k' e) other
        rw [← Generator.artifactPath_eq plain, before.locationOf] at off
        exact ⟨(rest.change.file_iff off).2 file, fun l hl => rest.change.folder (folders l hl)⟩
      · exact rest.there real k' hk' makes'
  | missed misses report exporter named change dry =>
    have kinds : (k :: ks).filter (g.Makes e.name t₀) = ks.filter (g.Makes e.name t₀) :=
      List.filter_cons_of_neg (by simpa using misses)
    have missing :
        (k :: ks).filter (fun k => ¬ g.Makes e.name t₀ k) = k :: ks.filter fun k => ¬ g.Makes e.name t₀ k :=
      List.filter_cons_of_pos (by simpa using misses)
    constructor
    · rw [rest.report, report]
      rfl
    · rw [rest.files, kinds, report]
      rfl
    · rw [rest.manifest, kinds, exporter]
    · obtain ⟨errors, herrors, names⟩ := rest.errors
      rw [missing]
      refine ⟨_ :: errors, ?_, .cons named names⟩
      rw [herrors, report]
      simp [Progress.withError]
    · exact rest.serves
    · rw [kinds]
      exact (change.trans rest.change).mono (by simp)
    · exact rest.sees
    · intro d
      rw [rest.dry d, dry d]
    · intro real k' hk' makes'
      rcases List.mem_cons.1 hk' with rfl | hk'
      · exact absurd makes' misses
      · exact rest.there real k' hk' makes'

/-- Which artifacts are made, and what they hold, is decided by the tree from the start. -/
theorem ensures_fates (plain : g.settings.folders = {}) (h : w.Serves g ks) (nodup : ks.Nodup) {files : Set Path}
    (before : SourceChange g.root files t₀ t) (others : ∀ k ∈ ks, Artifact.outputPath {} k e.name ∉ files)
    (sees : g.Sees t₀ t) :
    (makeArtifacts g.settings.folders e.name context ks w).Ensures t fun r u =>
      ∀ w', r = .ok w' → ArtifactsMade g e context t₀ t ks w w' u := by
  induction ks generalizing w t files with
  | nil =>
    refine Job.ensures_pure ?_
    rintro w' ⟨⟩
    constructor
    case errors => exact ⟨[], by simp, .nil⟩
    case serves => exact h
    case sees => exact sees
    case change => exact .refl _ _ _
    all_goals simp
  | cons k ks ih =>
    obtain ⟨hk, nodup⟩ := List.nodup_cons.1 nodup
    refine (ensures_makeArtifact h t).bind ?_ (by rintro f u - w' ⟨⟩)
    intro w₁ t₁ step
    obtain ⟨fate, sees₁⟩ := step.fate plain before (others k List.mem_cons_self) sees
    have before₁ := before.trans fate.change
    have others₁ : ∀ k' ∈ ks, Artifact.outputPath {} k' e.name ∉ files ∪ places e [k] := by
      rintro k' hk' (hm | hm)
      · exact others k' (List.mem_cons_of_mem _ hk') hm
      · have fresh : k' ∉ [k] := fun he => hk (List.mem_singleton.1 he ▸ hk')
        exact not_mem_places fresh hm
    refine (ih (step.serves h hk) nodup before₁ others₁ sees₁).mono ?_
    intro r u rest w' hw'
    exact (rest w' hw').cons fate plain hk before₁

theorem ArtifactsMade.silent_of_makes (made : ArtifactsMade g e context t₀ t ks w w' u)
    (makes : ∀ k ∈ ks, g.Makes e.name t₀ k) : w'.report.errors = w.report.errors := by
  obtain ⟨errors, herrors, names⟩ := made.errors
  have none_ : ks.filter (fun k => ¬ g.Makes e.name t₀ k) = [] :=
    List.filter_eq_nil_iff.2 fun k hk => by simpa using makes k hk
  rw [none_, List.forall₂_nil_left_iff] at names
  rw [herrors, names, List.append_nil]

theorem ArtifactsMade.makes_of_silent {w₀ w₁ : Progress} {u₁ : FileTree}
    (made : ArtifactsMade g e context t t Kind.all w₀ w₁ u₁) (silent : w₁.report.errors = []) (k : Kind) :
    g.Makes e.name t k := by
  obtain ⟨errors, herrors, names⟩ := made.errors
  have quiet : errors = [] := (List.append_eq_nil_iff.1 (herrors.symm.trans silent)).2
  rw [quiet, List.forall₂_nil_right_iff, List.filter_eq_nil_iff] at names
  simpa using names k k.mem_all

end Fates

end EntityScaffold.Run
