import EntityScaffold.Proofs.Run.Isolation
import EntityScaffold.Proofs.Run.Session
import EntityScaffold.Proofs.Run.Sightings
import EntityScaffold.Proofs.SharedFile.Filling

/-
A run with the settings as they are built in. Where the model can be read, the places of the artifacts are free, and the
shared files hold texts, the run makes all artifacts and registers the entity in each shared file.
-/

namespace EntityScaffold.Run

open Artifact (Kind)
open FileTree (Change SourceChange)
open Naming (Identifier AddressPrefix)
open SharedFile (Target Registration builtIn entityContext)
open Template (substitute)
open Text (unifyLineEnds)

variable {g : Generator} {t u : FileTree} {e : Identifier} {p : AddressPrefix} {ts : List Target} {w : Progress}
variable {entity permission : Text} {c : Template.Context} {text : Target → Text} {files : Set Path} {ks : List Kind}

section SharedTexts

theorem fileText?_of_change {root q : Path} {x : Text} (change : SourceChange root files t u) (hq : q.IsSource)
    (other : q ∉ files) (h : fileText? t (root / q) = some x) : fileText? u (root / q) = some x := by
  obtain ⟨octets, hread, hdecode⟩ := read_of_fileText? h
  have kept := change.read (FileTree.locationOf_not_mem_sources hq other) hread
  simp only [fileText?, kept, hdecode, Except.toOption]

theorem ensures_registerEntity {root : Path} {target : Target} {x : Text} (ht : target ∈ builtIn)
    (h : fileText? t (root / target.place) = some x) (room : t.HasRoom (root / target.place)) (p : AddressPrefix)
    (e : Identifier) (rest : Template.Context) :
    (register root false target e.name (entityContext e.name p.text ++ rest)).Ensures t fun r u =>
      ∃ after, r = .ok (reportOf target (outcomeOf target p e x)) ∧ fileText? u (root / target.place) = some after ∧
        unifyLineEnds after = (outcomeOf target p e x).left (unifyLineEnds x) ∧
        ((outcomeOf target p e x).left (unifyLineEnds x) = unifyLineEnds x → u = t) := by
  have same : register root false target e.name (entityContext e.name p.text ++ rest) =
      registerEntity root target p e := by
    simp only [registerEntity, register, SharedFile.Target.register_append ht e p rest]
  rintro w rfl
  obtain ⟨r, w', hrun, call⟩ := run_registerEntity ht h p e
  obtain ⟨report, rfl⟩ := call.reports ((hasRoom_iff_isReplaceable ht).1 room)
  obtain ⟨rfl, after, hafter, hleft, hsame⟩ := call.of_ok
  rw [same, hrun]
  exact ⟨after, rfl, hafter, hleft, hsame⟩

theorem ensures_registerOne_text {target : Target} {x : Text} (real : g.dryRun = false) (ht : target ∈ builtIn)
    (h : fileText? t (g.root / target.place) = some x) (room : t.HasRoom (g.root / target.place)) (p : AddressPrefix)
    (e : Identifier) (rest : Template.Context) (w : Progress) :
    (registerOne g e.name (entityContext e.name p.text ++ rest) w target).Ensures t fun r u =>
      ∃ after, r = .ok (w.withRegistration (reportOf target (outcomeOf target p e x))) ∧
        fileText? u (g.root / target.place) = some after ∧
        unifyLineEnds after = (outcomeOf target p e x).left (unifyLineEnds x) ∧
        ((outcomeOf target p e x).left (unifyLineEnds x) = unifyLineEnds x → u = t) := by
  unfold registerOne
  rw [real]
  refine (ensures_registerEntity ht h room p e rest).attempt ?_
  rintro r u ⟨after, rfl, hafter, hleft, hsame⟩
  exact Job.ensures_pure ⟨after, rfl, hafter, hleft, hsame⟩

/-- What registering in shared files leaves, where each holds a text. -/
structure TextsRegistered (g : Generator) (p : AddressPrefix) (e : Identifier) (text : Target → Text) (ts : List Target)
    (t u : FileTree) : Prop where
  left : ∀ target ∈ ts, ∃ after, fileText? u (g.root / target.place) = some after ∧
    unifyLineEnds after = (outcomeOf target p e (text target)).left (unifyLineEnds (text target))
  change : SourceChange g.root (sharedPlaces ts) t u
  idle : (∀ target ∈ ts,
    (outcomeOf target p e (text target)).left (unifyLineEnds (text target)) = unifyLineEnds (text target)) → u = t

theorem ensures_textsRegistered (real : g.dryRun = false) (sub : ts ⊆ builtIn) (nodup : ts.Nodup)
    (texts : ∀ target ∈ ts, fileText? t (g.root / target.place) = some (text target))
    (room : ∀ target ∈ ts, t.HasRoom (g.root / target.place)) (p : AddressPrefix) (e : Identifier)
    (rest : Template.Context) (w : Progress) :
    (registerAll g e.name (entityContext e.name p.text ++ rest) ts w).Ensures t fun r u =>
      r = .ok (w.withRegistrations (ts.map fun target => reportOf target (outcomeOf target p e (text target)))) ∧
        TextsRegistered g p e text ts t u := by
  induction ts generalizing w t with
  | nil => exact Job.ensures_pure ⟨rfl, by simp, .refl _ _ _, fun _ => rfl⟩
  | cons target ts ih =>
    obtain ⟨mem, sub⟩ := List.cons_subset.1 sub
    obtain ⟨fresh, nodup⟩ := List.nodup_cons.1 nodup
    have source := SharedFile.place_source mem
    have one :=
      ensures_registerOne_text real mem (texts target List.mem_cons_self) (room target List.mem_cons_self) p e rest w
    have step := ensures_registerOne g e.name (entityContext e.name p.text ++ rest) w target t
    refine (one.and step).bind ?_ (by rintro f t₁ ⟨⟨after, ⟨⟩, -⟩, -⟩)
    rintro w₁ t₁ ⟨⟨after, hw₁, hafter, hleft, hsame⟩, step⟩
    obtain rfl := Except.ok.inj hw₁
    obtain ⟨r₁, registered⟩ := step.registered
    have change := registered.sourceChange source
    have apart {target' : Target} (ht' : target' ∈ ts) : target'.place ≠ target.place :=
      fun heq => fresh (SharedFile.place_inj (sub ht') mem heq ▸ ht')
    have texts₁ : ∀ target' ∈ ts, fileText? t₁ (g.root / target'.place) = some (text target') := by
      intro target' ht'
      have before := texts target' (List.mem_cons_of_mem _ ht')
      exact fileText?_of_change change (SharedFile.place_source (sub ht')) (apart ht') before
    have room₁ : ∀ target' ∈ ts, t₁.HasRoom (g.root / target'.place) := by
      intro target' ht'
      exact (FileTree.hasRoom_congr change.work).2 (room target' (List.mem_cons_of_mem _ ht'))
    refine (ih sub nodup texts₁ room₁ _).mono ?_
    rintro r u ⟨rfl, others⟩
    refine ⟨rfl, ?_, ?_, fun still => ?_⟩
    · intro target' ht'
      rcases List.mem_cons.1 ht' with rfl | ht'
      · refine ⟨after, fileText?_of_change others.change source ?_ hafter, hleft⟩
        rintro ⟨target', ht', heq⟩
        exact apart ht' heq.symm
      · exact others.left target' ht'
    · refine (change.trans others.change).mono ?_
      rintro q (rfl | ⟨target', ht', rfl⟩)
      · exact ⟨target, List.mem_cons_self, rfl⟩
      · exact ⟨target', List.mem_cons_of_mem _ ht', rfl⟩
    · have later := others.idle fun target' ht' => still target' (List.mem_cons_of_mem _ ht')
      rw [later, hsame (still target List.mem_cons_self)]

end SharedTexts

section Again

theorem TextWritten.settled {q : Path} {x : Text} {r : Except Failure Nat} (h : TextWritten t q x r u)
    (there : t.read q = .ok (Utf8.encode x)) : Change ∅ ∅ t u := by
  obtain ⟨-, -, folders, file⟩ := FileTree.read_eq_ok_iff.1 there
  cases h with
  | written _ change _ after =>
    have change := change.made_there folders
    refine ⟨change.work, fun l => ?_⟩
    rcases change.nodes l with same | ⟨hl, -⟩ | ⟨rfl, -⟩
    · exact Or.inl same
    · exact absurd hl (Set.notMem_empty l)
    · exact Or.inl (after.trans file.symm)
  | refused change _ _ => exact change.made_there folders

theorem ensures_makeArtifacts_again (packaged : g.templateFolder = none) (h : w.Serves g ks) (nodup : ks.Nodup)
    (there : ∀ k ∈ ks, t.read (g.artifactPath entity k) = .ok (Utf8.encode (substitute k.packaged c))) :
    (makeArtifacts g.settings.folders entity c ks w).Ensures t fun _ u => Change ∅ ∅ t u := by
  induction ks generalizing w t with
  | nil => exact Job.ensures_pure (.refl _ _ _)
  | cons k ks ih =>
    obtain ⟨hk, nodup⟩ := List.nodup_cons.1 nodup
    have own := there k List.mem_cons_self
    have found {x : Text} (hx : templateIn g.templateFolder t k = .ok x) : k.packaged = x := by
      rw [packaged] at hx
      exact Except.ok.inj hx
    refine (ensures_makeArtifact h t).bind ?_ ?_
    · intro w₁ t₁ step
      have change : Change ∅ ∅ t t₁ := by
        cases step with
        | made hx dry real =>
          obtain rfl := found hx
          cases hdry : g.dryRun with
          | true =>
            rw [dry hdry]
            exact .refl _ _ _
          | false =>
            obtain ⟨n, written⟩ := real hdry
            exact written.settled own
        | unread _ => exact .refl _ _ _
        | unwritten hx _ refused =>
          obtain rfl := found hx
          exact refused.settled own
      refine (ih (step.serves h hk) nodup fun k' hk' => ?_).mono fun r u change' => change.trans change'
      exact change.read (Set.notMem_empty _) (there k' (List.mem_cons_of_mem _ hk'))
    · intro f t₁ step
      cases step with | stopped null _ _ =>
      rcases null with ⟨q, hq, -⟩ | ⟨-, null⟩
      · rw [packaged] at hq
        exact absurd hq (by simp)
      · exact absurd null (FileTree.read_eq_ok_iff.1 own).1.null

end Again

def standard : Generator := { settings := {} }

/-- The values that a run fills the templates with, as the schema of a tree has them. -/
def Filled (e : Identifier) (permission : Text) (c : Template.Context) (t : FileTree) : Prop :=
  ∃ m, (standard.model e.name).resultIn t = .ok m ∧ (standard.context m permission).resultIn t = .ok c

/-- A tree from which a run makes all artifacts of an entity, filled with the values of a context. -/
structure Ready (e : Identifier) (permission : Text) (c : Template.Context) (t : FileTree) : Prop where
  filled : Filled e permission c t
  accepts : ∀ k, t.Accepts (standard.artifactPath e.name k)

theorem Filled.schema (h : Filled e permission c t) : ∃ x, textAt t standard.schemaPath = .ok x := by
  obtain ⟨m, model, -⟩ := h
  exact (model_ok model).1

theorem Filled.eq_append (h : Filled e permission c t) : ∃ rest, c = entityContext e.name apiPrefix.text ++ rest := by
  obtain ⟨m, model, context⟩ := h
  obtain ⟨-, -, same⟩ := model_ok model
  have noSlash : Text.trimEnd (· = '/') apiPrefix.text = ({} : Settings).apiPrefix := by decide
  obtain ⟨-, ⟨rest, hc⟩ | ⟨hc, -⟩⟩ := (ensures_context standard m permission t).resultIn
  · rw [context, same] at hc
    refine ⟨rest, (Except.ok.inj hc).trans ?_⟩
    rw [entityContext, noSlash]
    rfl
  · rw [context] at hc
    exact absurd hc (by simp)

theorem standard_schema_kept (change : SourceChange standard.root files t u) {octets : Octets}
    (h : t.read standard.schemaPath = .ok octets) : u.read standard.schemaPath = .ok octets := by
  have named : standard.schemaPath.HasName := by
    constructor <;> decide
  have ending : ¬ ".ts".toList <:+ standard.schemaPath.name := by decide
  refine change.read ?_ h
  rw [FileTree.locationOf_eq named]
  exact FileTree.not_mem_sources_of_name ending

/-- Where the schema can be read: the values stay what they are while other files of the project are written. -/
theorem filled_iff_of_change (schema : ∃ x, textAt t standard.schemaPath = .ok x)
    (change : SourceChange standard.root files t u) : Filled e permission c u ↔ Filled e permission c t := by
  obtain ⟨x, hx⟩ := schema
  obtain ⟨octets, before, -⟩ := textAt_ok_iff.1 hx
  have after := standard_schema_kept change before
  have look : t.look standard.schemaPath = u.look standard.schemaPath :=
    (FileTree.look_of_read before).trans (FileTree.look_of_read after).symm
  have models : (standard.model e.name).resultIn t = (standard.model e.name).resultIn u :=
    Job.Asks.resultIn_eq (asks_model look (before.trans after.symm))
  have contexts (m : Schema.Model) :
      (standard.context m permission).resultIn t = (standard.context m permission).resultIn u :=
    Job.Asks.resultIn_eq (asks_context m)
  simp only [Filled, models, contexts]

structure AllMade (e : Identifier) (c : Template.Context) (text : Target → Text) (t : FileTree) (w : Progress)
    (u : FileTree) : Prop where
  errors : w.report.errors = []
  registrations : w.report.registrations =
    builtIn.map fun target => reportOf target (outcomeOf target apiPrefix e (text target))
  artifacts : ∀ k, u.read (standard.artifactPath e.name k) = .ok (Utf8.encode (substitute k.packaged c))
  shared : ∀ target ∈ builtIn, ∃ after, fileText? u (standard.root / target.place) = some after ∧
    unifyLineEnds after = (outcomeOf target apiPrefix e (text target)).left (unifyLineEnds (text target))
  change : SourceChange standard.root (places e Kind.all ∪ sharedPlaces builtIn) t u
  again : (∀ k, t.read (standard.artifactPath e.name k) = .ok (Utf8.encode (substitute k.packaged c))) →
    (∀ target ∈ builtIn, (outcomeOf target apiPrefix e (text target)).left (unifyLineEnds (text target)) =
      unifyLineEnds (text target)) → Change ∅ ∅ t u

structure AllArtifacts (e : Identifier) (permission : Text) (m : Schema.Model) (c : Template.Context) (t : FileTree)
    (w : Progress) (u : FileTree) : Prop where
  made : ArtifactsMade standard e c t t Kind.all (standard.opening e.name permission m) w u
  again : (∀ k, t.read (standard.artifactPath e.name k) = .ok (Utf8.encode (substitute k.packaged c))) → Change ∅ ∅ t u

theorem Ready.makes (ready : Ready e permission c t) (k : Kind) : standard.Makes e.name t k :=
  ⟨⟨k.packaged, rfl⟩, fun _ => ready.accepts k⟩

/-- The path of a documentation artifact is longer than that of any shared file, so there is room next to these too. -/
theorem Ready.hasRoom (ready : Ready e permission c t) : ∀ target ∈ builtIn, t.HasRoom (standard.root / target.place) := by
  intro target mem
  have folder : (Utf8.encode (Text.joinWith ['/'] Kind.docDefinition.folder.parts)).length = 30 := by decide
  have ending : (Utf8.encode Kind.docDefinition.layout.ending).length = 13 := by decide
  have long : 43 ≤ (Utf8.encode (Artifact.outputPath {} .docDefinition e.name).text).length := by
    rw [Artifact.outputPath_eq, Path.text_of_parts (by simp), Text.joinWith_append _ (by decide) (by simp)]
    simp only [Text.joinWith_singleton, Utf8.encode_append, List.length_append, folder, Artifact.Layout.fileName, ending]
    omega
  have short : ∀ target ∈ builtIn, (Utf8.encode target.place.text).length ≤ 43 := by decide
  exact (ready.accepts .docDefinition).toHasRoom.of_le (Artifact.outputPath_source .docDefinition e)
    (SharedFile.place_source mem) ((short target mem).trans long) (length_name_place mem)

theorem ensures_allArtifacts (ready : Ready e permission c t) (m : Schema.Model) :
    (makeArtifacts standard.settings.folders e.name c Kind.all (standard.opening e.name permission m)).Ensures t
      fun r u => ∃ w, r = .ok w ∧ AllArtifacts e permission m c t w u := by
  have plain : standard.settings.folders = {} := rfl
  have serves := standard.opening_serves e.name permission m
  intro w hw
  rcases ensures_artifacts plain e permission m c t w hw with ⟨w₁, hw₁, made⟩ | ⟨-, k, null⟩
  · refine ⟨w₁, hw₁, made, fun there => ?_⟩
    exact ensures_makeArtifacts_again rfl serves Kind.nodup_all (fun k _ => there k) w hw
  · rcases null with ⟨q, hq, -⟩ | ⟨-, null⟩
    · exact absurd hq (by simp [Generator.templateFolder, standard, Engine.folderOf])
    · exact absurd null (ready.accepts k).fits.null

theorem AllArtifacts.ensures_allMade {m : Schema.Model} (artifacts : AllArtifacts e permission m c t w u)
    (ready : Ready e permission c t)
    (texts : ∀ target ∈ builtIn, fileText? t (standard.root / target.place) = some (text target)) :
    (registerAll standard e.name c builtIn w).Ensures u fun r v => ∃ w', r = .ok w' ∧ AllMade e c text t w' v := by
  obtain ⟨rest, hc⟩ := ready.filled.eq_append
  obtain ⟨made, still⟩ := artifacts
  have real : standard.dryRun = false := rfl
  have texts' : ∀ target ∈ builtIn, fileText? u (standard.root / target.place) = some (text target) := by
    intro target mem
    exact fileText?_of_change made.change (SharedFile.place_source mem) (place_not_mem_places mem) (texts target mem)
  have room : ∀ target ∈ builtIn, u.HasRoom (standard.root / target.place) := by
    intro target mem
    exact (FileTree.hasRoom_congr made.change.work).2 (ready.hasRoom target mem)
  have registering :=
    ensures_textsRegistered real (List.Subset.refl _) SharedFile.nodup_builtIn texts' room apiPrefix e rest w
  rw [← hc] at registering
  refine registering.mono ?_
  rintro r v ⟨rfl, registered⟩
  refine ⟨_, rfl, ?_, ?_, fun k => ?_, registered.left, ?_, fun there idle => ?_⟩
  · rw [Progress.errors_withRegistrations, made.silent_of_makes fun k _ => ready.makes k]
    rfl
  · rw [Progress.registrations_withRegistrations, made.report]
    rfl
  · have step : ManifestStep standard none w v (.ok w) v := .skipped (Or.inl rfl)
    exact artifact_kept made registered.change step rfl real (by simp) (ready.makes k)
  · refine (made.change.trans registered.change).mono ?_
    exact Set.union_subset_union_left _ (places_mono (List.filter_subset_self _))
  · rw [registered.idle idle]
    exact still there

theorem ensures_allMade (ready : Ready e permission c t)
    (texts : ∀ target ∈ builtIn, fileText? t (standard.root / target.place) = some (text target)) :
    (standard.run e.name permission none).Ensures t fun r u => ∃ w, r = .ok w.closing ∧ AllMade e c text t w u := by
  obtain ⟨m, model, context⟩ := ready.filled
  refine ensures_run_of_stages (AllArtifacts e permission m c t) (AllMade e c text t) (AllMade e c text t)
    model context (ensures_allArtifacts ready m) ?_ ?_
  · intro w u artifacts
    exact artifacts.ensures_allMade ready texts
  · intro w u all
    exact Job.ensures_pure ⟨w, rfl, all⟩

end EntityScaffold.Run
