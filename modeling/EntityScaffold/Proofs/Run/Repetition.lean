import EntityScaffold.Proofs.Run.Standard

/-
Runs for several entities, one after the other and over again. Entities whose names differ below their first letters share
no place, so the runs leave what each of them would leave alone.
-/

namespace EntityScaffold.Run

open Artifact (Kind)
open FileTree (Change SourceChange)
open Naming (Identifier lowerCamel)
open SharedFile (Target builtIn)
open Template (substitute)
open Text (occurrences unifyLineEnds)

variable {permission : Identifier → Text} {e f : Identifier} {es : List Identifier} {w w' : World} {t u : FileTree}
variable {text : Target → Text} {c : Template.Context}

/-- Runs one after the other, each of which reports that it went well and that nothing is amiss with the shared files. -/
inductive CleanRuns (permission : Identifier → Text) : List Identifier → World → World → Prop
  | nil (w : World) : CleanRuns permission [] w w
  | cons {e : Identifier} {es : List Identifier} {w w₁ w' : World} {report : Report}
      (run : World.run (standard.run e.name (permission e) none) w = (.ok report, w₁))
      (success : report.success = true) (silent : ∀ r ∈ report.registrations, r.warnings = [])
      (rest : CleanRuns permission es w₁ w') : CleanRuns permission (e :: es) w w'

/-- What a run shows that went well: the tree was ready for it, and held a text at each shared file if it was closed. -/
theorem ready_of_run {report : Report} {permission : Text}
    (h : RunEnds standard e.name permission none t (.ok report) u) (success : report.success = true)
    (silent : ∀ r ∈ report.registrations, r.warnings = []) :
    (∃ c, Ready e permission c t) ∧
      (t.IsClosed → ∀ target ∈ builtIn, ∃ x, fileText? t (standard.root / target.place) = some x) := by
  obtain ⟨m, c, w₁, u₁, w₂, u₂, w₃, model, context, made, registering, registered, step, rfl⟩ :=
    h.reported_cases rfl rfl
  obtain rfl : w₃ = w₂ := by
    cases step with
    | skipped _ => rfl
    | written none_ => exact absurd none_ (by simp)
    | noted none_ => exact absurd none_ (by simp)
  have silent₂ : w₃.report.errors = [] := List.isEmpty_iff.1 success
  obtain ⟨shared, hshared, -⟩ := registered.errors
  have silent₁ : w₁.report.errors = [] := (List.append_eq_nil_iff.1 (hshared.symm.trans silent₂)).1
  refine ⟨⟨c, ⟨m, model, context⟩, fun k => (made.makes_of_silent silent₁ k).2 rfl⟩, ?_⟩
  intro closed target mem
  have rooted : t.IsRooted standard.root := fun up => absurd up (by decide)
  obtain ⟨seen, hw₃⟩ := registerAll_seen closed rooted (List.Subset.refl _) SharedFile.nodup_builtIn made.change
    (fun _ mem => place_not_mem_places mem) registering silent₂
  obtain ⟨s, hs⟩ := seen target mem
  have reported : reportFor target c s ∈ w₃.report.registrations := by
    rw [hw₃, Progress.registrations_withRegistrations, ← Generator.reportIn_eq hs]
    exact List.mem_append_right _ (List.mem_map_of_mem mem)
  cases s with
  | none => exact absurd (silent _ reported) (by simp [reportFor])
  | some content => exact fileText?_of_textAt (sharedAt_some_iff.1 hs)

theorem AllMade.ready {p : Text} {c' : Template.Context} {w : Progress} (made : AllMade e c text t w u)
    (ready : Ready f p c' t) : Ready f p c' u := by
  refine ⟨(filled_iff_of_change ready.filled.schema made.change).2 ready.filled, fun k => ?_⟩
  by_cases written : Artifact.outputPath {} k f.name ∈ places e Kind.all ∪ sharedPlaces builtIn
  · rcases written with ⟨k', -, same⟩ | ⟨target, mem, same⟩
    · have there : u.read (standard.artifactPath f.name k) = .ok (Utf8.encode (substitute k'.packaged c)) := by
        rw [Generator.artifactPath, show standard.settings.folders = {} from rfl, same]
        exact made.artifacts k'
      exact (ready.accepts k).of_read made.change.work there
    · exact absurd same.symm (SharedFile.place_ne_outputPath mem k f)
  · exact (made.change.accepts_iff (Artifact.outputPath_source k f) written).2 (ready.accepts k)

/-- Registrations in a shared file, one after the other, none of which finds anything amiss. -/
def quietIn (target : Target) : List Identifier → Text → Bool
  | [], _ => true
  | e :: es, x =>
    (outcomeOf target apiPrefix e x).warnings.isEmpty &&
      quietIn target es ((outcomeOf target apiPrefix e x).left (unifyLineEnds x))

theorem quietIn_congr {target : Target} {x y : Text} (h : unifyLineEnds x = unifyLineEnds y) :
    quietIn target es x = quietIn target es y := by
  cases es with
  | nil => rfl
  | cons e es => simp only [quietIn, outcomeOf, h]

/-- Runs from a tree that is ready for all of them are clean, where the shared files show all anchors. -/
theorem CleanRuns.of_ready (ready : ∀ e ∈ es, ∃ c, Ready e (permission e) c w.tree)
    (texts : ∀ target ∈ builtIn, fileText? w.tree (standard.root / target.place) = some (text target))
    (quiet : ∀ target ∈ builtIn, quietIn target es (text target) = true) : ∃ w', CleanRuns permission es w w' := by
  induction es generalizing w text with
  | nil => exact ⟨w, .nil w⟩
  | cons e es ih =>
    obtain ⟨c, ready_e⟩ := ready e List.mem_cons_self
    obtain ⟨done, hdone, made⟩ := ensures_allMade ready_e texts w rfl
    have silent : ∀ r ∈ done.closing.registrations, r.warnings = [] := by
      intro r hr
      rw [show done.closing.registrations = _ from made.registrations] at hr
      obtain ⟨target, mem, rfl⟩ := List.mem_map.1 hr
      rw [warnings_reportOf]
      exact List.isEmpty_iff.1 (Bool.and_eq_true_iff.1 (quiet target mem)).1
    choose! next hnext hleft using made.shared
    have later : ∀ target ∈ builtIn, quietIn target es (next target) = true := by
      intro target mem
      rw [quietIn_congr ((hleft target mem).trans (unifyLineEnds_left mem apiPrefix e _).symm)]
      exact (Bool.and_eq_true_iff.1 (quiet target mem)).2
    have ready' : ∀ f ∈ es, ∃ c', Ready f (permission f) c' _ := fun f hf =>
      (ready f (List.mem_cons_of_mem e hf)).imp fun _ => made.ready
    obtain ⟨w', rest⟩ := ih ready' hnext later
    exact ⟨w', .cons (Prod.ext hdone rfl) (List.isEmpty_iff.2 made.errors) silent rest⟩

/-- Entities that share a place with another one only if they are that one. -/
def Distinct (es : List Identifier) : Prop :=
  ∀ e ∈ es, ∀ f ∈ es, lowerCamel e.name = lowerCamel f.name → e = f

def allPlaces (es : List Identifier) : Set Path := {q | ∃ e ∈ es, q ∈ places e Kind.all} ∪ sharedPlaces builtIn

theorem allPlaces_cons : allPlaces (e :: es) = (places e Kind.all ∪ sharedPlaces builtIn) ∪ allPlaces es := by
  ext q
  simp only [allPlaces, Set.mem_union, Set.mem_ofPred_eq, List.mem_cons, exists_eq_or_imp]
  grind

theorem not_mem_allPlaces (k : Kind) (apart : ∀ f ∈ es, lowerCamel e.name ≠ lowerCamel f.name) :
    Artifact.outputPath {} k e.name ∉ allPlaces es := by
  rintro (⟨f, hf, k', -, heq⟩ | ⟨target, mem, heq⟩)
  · exact apart f hf (Artifact.outputPath_inj heq).2
  · exact SharedFile.place_ne_outputPath mem k e heq.symm

/-- A tree that is ready for an entity after a run for another one was ready for it before that run. -/
theorem Ready.of_change {files : Set Path} {p : Text} {c' : Template.Context} (ready : Ready e p c t)
    (ready' : Ready f (permission f) c' u) (change : SourceChange standard.root files t u)
    (same : ∀ k, Artifact.outputPath {} k f.name ∈ files → f = e) : Ready f (permission f) c' t := by
  refine ⟨(filled_iff_of_change ready.filled.schema change).1 ready'.filled, fun k => ?_⟩
  by_cases written : Artifact.outputPath {} k f.name ∈ files
  · exact same k written ▸ ready.accepts k
  · exact (change.accepts_iff (Artifact.outputPath_source k f) written).1 (ready'.accepts k)

structure Left (permission : Identifier → Text) (es : List Identifier) (text : Target → Text) (t u : FileTree) :
    Prop where
  change : SourceChange standard.root (allPlaces es) t u
  artifacts : ∀ e ∈ es, ∃ c, Ready e (permission e) c t ∧
    ∀ k, u.read (standard.artifactPath e.name k) = .ok (Utf8.encode (substitute k.packaged c))
  shared : ∀ target ∈ builtIn, ∃ after, fileText? u (standard.root / target.place) = some after ∧
    (∀ f : Identifier,
      occurrences (target.markerOf apiPrefix f) (text target) ≤ occurrences (target.markerOf apiPrefix f) after ∧
        occurrences (target.markerOf apiPrefix f) after ≤
          max 1 (occurrences (target.markerOf apiPrefix f) (text target))) ∧
    ∀ e ∈ es, 0 < occurrences (target.markerOf apiPrefix e) after

theorem CleanRuns.left (runs : CleanRuns permission es w w') (distinct : Distinct es)
    (texts : ∀ target ∈ builtIn, fileText? w.tree (standard.root / target.place) = some (text target)) :
    Left permission es text w.tree w'.tree := by
  induction runs generalizing text with
  | nil w =>
    refine ⟨.refl _ _ _, by simp, fun target mem => ⟨text target, texts target mem, fun f => ?_, by simp⟩⟩
    exact ⟨Nat.le_refl _, Nat.le_max_right _ _⟩
  | @cons e es w w₁ w' report run success silent rest ih =>
    obtain ⟨⟨c, ready⟩, -⟩ := ready_of_run ((ensures_run _ _ _ _ _).of_run run) success silent
    obtain ⟨done, hdone, made⟩ := (ensures_allMade ready texts).of_run run
    obtain rfl := Except.ok.inj hdone
    choose! next hnext hleft using made.shared
    have left := ih (fun f hf g hg => distinct f (List.mem_cons_of_mem _ hf) g (List.mem_cons_of_mem _ hg)) hnext
    have change := made.change
    refine ⟨?_, fun f hf => ?_, fun target mem => ?_⟩
    · rw [allPlaces_cons]
      exact change.trans left.change
    · by_cases later : f ∈ es
      · obtain ⟨c', ready', reads⟩ := left.artifacts f later
        refine ⟨c', ready.of_change ready' change ?_, reads⟩
        rintro k (⟨k', -, heq⟩ | ⟨target, mem, heq⟩)
        · exact distinct f hf e List.mem_cons_self (Artifact.outputPath_inj heq).2
        · exact absurd heq.symm (SharedFile.place_ne_outputPath mem k f)
      · obtain rfl : f = e := (List.mem_cons.1 hf).resolve_right later
        refine ⟨c, ready, fun k => ?_⟩
        have other := not_mem_allPlaces k fun g hg heq =>
          later (distinct f hf g (List.mem_cons_of_mem _ hg) heq ▸ hg)
        exact left.change.read (FileTree.locationOf_not_mem_sources (Artifact.outputPath_source k f) other)
          (made.artifacts k)
    · obtain ⟨after, hafter, counts, marked⟩ := left.shared target mem
      refine ⟨after, hafter, fun f => ?_, fun f hf => ?_⟩
      · obtain ⟨least, most, -⟩ := counts_of_call mem (hleft target mem) f
        obtain ⟨least', most'⟩ := counts f
        omega
      · rcases List.mem_cons.1 hf with rfl | hf
        · have quiet := silent _ (made.registrations ▸ List.mem_map_of_mem mem)
          exact lt_of_lt_of_le (marker_of_silent mem (hleft target mem) quiet) (counts f).1
        · exact marked f hf

/-- One more run for an entity whose artifacts stand, and which is registered everywhere, changes nothing. -/
theorem run_again {p : Text} (ready : Ready e p c w.tree)
    (texts : ∀ target ∈ builtIn, fileText? w.tree (standard.root / target.place) = some (text target))
    (reads : ∀ k, w.tree.read (standard.artifactPath e.name k) = .ok (Utf8.encode (substitute k.packaged c)))
    (registered : ∀ target ∈ builtIn, outcomeOf target apiPrefix e (text target) = .registered) :
    ∃ again v, World.run (standard.run e.name p none) w = (.ok again, v) ∧
      (∀ l, v.tree.get? l = w.tree.get? l) ∧ again.registrations.map (·.target) = builtIn.map (·.name) ∧
      ∀ r ∈ again.registrations, r.applied = false := by
  obtain ⟨done, hdone, made⟩ := ensures_allMade ready texts w rfl
  have still : Change ∅ ∅ w.tree (World.run (standard.run e.name p none) w).2.tree := by
    refine made.again reads fun target mem => ?_
    rw [registered target mem]
    rfl
  have reports : done.closing.registrations =
      builtIn.map fun target => { target := target.name, filePath := target.filePath } := by
    refine made.registrations.trans (List.map_congr_left fun target mem => ?_)
    rw [registered target mem]
    rfl
  refine ⟨done.closing, _, Prod.ext hdone rfl, fun l => ?_, ?_, ?_⟩
  · exact still.kept (Set.notMem_empty l) (Set.notMem_empty l)
  · rw [reports, List.map_map]
    rfl
  · rw [reports]
    intro r hr
    obtain ⟨target, -, rfl⟩ := List.mem_map.1 hr
    rfl

/-- Over any clean runs, with any order and repetition of their entities: each entity's artifacts are those of a run for it
alone, its marker is there once in each shared file, and one more run for it changes nothing. -/
theorem repeated_runs (closed : w.tree.IsClosed) (distinct : Distinct es)
    (single : ∀ target ∈ builtIn, ∀ x, sharedText? standard.root target w = some x →
      ∀ e ∈ es, occurrences (target.markerOf apiPrefix e) x ≤ 1)
    (runs : CleanRuns permission es w w') :
    ∀ e ∈ es,
      (∃ alone v, World.run (standard.run e.name (permission e) none) w = (.ok alone, v) ∧ alone.success = true ∧
        ∀ k, ∃ octets, v.tree.read (standard.artifactPath e.name k) = .ok octets ∧
          w'.tree.read (standard.artifactPath e.name k) = .ok octets) ∧
      (∀ target ∈ builtIn, ∃ x, sharedText? standard.root target w' = some x ∧
        occurrences (target.markerOf apiPrefix e) x = 1) ∧
      ∃ again v, World.run (standard.run e.name (permission e) none) w' = (.ok again, v) ∧
        (∀ l, v.tree.get? l = w'.tree.get? l) ∧ again.registrations.map (·.target) = builtIn.map (·.name) ∧
        ∀ r ∈ again.registrations, r.applied = false := by
  intro e he
  obtain ⟨text, texts⟩ : ∃ text : Target → Text,
      ∀ target ∈ builtIn, fileText? w.tree (standard.root / target.place) = some (text target) := by
    cases runs with
    | nil => exact absurd he List.not_mem_nil
    | cons run success silent _ =>
      obtain ⟨-, texts⟩ := ready_of_run ((ensures_run _ _ _ _ _).of_run run) success silent
      choose! text htext using texts closed
      exact ⟨text, htext⟩
  have left := runs.left distinct texts
  obtain ⟨c, ready, reads⟩ := left.artifacts e he
  choose! later hlater counts marked using left.shared
  have ready' : Ready e (permission e) c w'.tree :=
    ⟨(filled_iff_of_change ready.filled.schema left.change).2 ready.filled,
      fun k => (ready.accepts k).of_read left.change.work (reads k)⟩
  have registered (target : Target) (mem : target ∈ builtIn) :
      outcomeOf target apiPrefix e (later target) = .registered :=
    idle_of_has_marker mem (marked target mem e he)
  refine ⟨?_, fun target mem => ⟨later target, hlater target mem, ?_⟩, ?_⟩
  · obtain ⟨done, hdone, made⟩ := ensures_allMade ready texts w rfl
    refine ⟨done.closing, _, Prod.ext hdone rfl, ?_, fun k => ⟨_, made.artifacts k, reads k⟩⟩
    exact List.isEmpty_iff.2 made.errors
  · have most := (counts target mem e).2
    have start := single target mem (text target) (texts target mem) e he
    have least := marked target mem e he
    omega
  · exact run_again ready' hlater reads registered

def sharedWorld : World where
  tree := workTree
    ["db".toList, "db/prisma".toList, "src".toList, "src/routes".toList, "src/config".toList, "src/config/swagger".toList]
    [("db/prisma/schema.prisma".toList,
        Utf8.encode "model Widget \x7b\n  id Int\n\x7d\nmodel Ticket \x7b\n  size Int\n\x7d\n".toList),
      ("src/config/inversifyConfig.ts".toList,
        Utf8.encode "const container = new Container();\nexport default container;\n".toList),
      ("src/routes/v1.ts".toList, Utf8.encode plainRouter),
      ("src/config/swagger/swaggerConfig.ts".toList,
        Utf8.encode ("// Path Imports ends\n// Definition Imports ends\n" ++
          "// register new paths here\n// register new defintions here\n").toList)]

theorem filled_sharedWorld : ∀ e ∈ [widget, ticket], ∃ c, Filled e e.name c sharedWorld.tree := by
  intro e he
  have evaluated : ∀ e ∈ [widget, ticket], (World.run (standard.model e.name >>= fun m => standard.context m e.name)
      sharedWorld).1.toOption.map (fun _ => ()) = some () := by decide +kernel
  obtain ⟨c, run, -⟩ := Job.run_eq_ok (evaluated e he)
  have ends : Job.Ends sharedWorld.tree (standard.model e.name >>= fun m => standard.context m e.name) (.ok c) _ :=
    ⟨sharedWorld, rfl, congrArg Prod.fst run, rfl⟩
  obtain ⟨m, u, model, context⟩ := ends.bind_ok
  obtain ⟨hmodel, rfl⟩ := (asks_model rfl rfl).ensures.of_ends model
  obtain ⟨hcontext, -⟩ := (asks_context m).ensures.of_ends context
  exact ⟨c, m, hmodel.symm, hcontext.symm⟩

theorem accepts_sharedWorld :
    ∀ e ∈ [widget, ticket], ∀ k, sharedWorld.tree.Accepts (standard.artifactPath e.name k) := by
  intro e he k
  have checks : ∀ e ∈ [widget, ticket], ∀ k ∈ Kind.all, (World.run (writeFile (standard.artifactPath e.name k) [] true)
      { tree := sharedWorld.tree }).1.toOption.map (fun _ => ()) = some () := by decide +kernel
  obtain ⟨n, written, -⟩ := Job.run_eq_ok (checks e he k k.mem_all)
  exact accepts_iff_writeFile.2 ⟨n, congrArg Prod.fst written⟩

/-- Runs for an entity, for another one, and for the first again. -/
theorem repeated_runs_sharedWorld :
    ∃ w', CleanRuns (fun e => e.name) [widget, ticket, widget] sharedWorld w' ∧
      ∀ e ∈ [widget, ticket],
        (∃ alone v, World.run (standard.run e.name e.name none) sharedWorld = (.ok alone, v) ∧ alone.success = true ∧
          ∀ k, ∃ octets, v.tree.read (standard.artifactPath e.name k) = .ok octets ∧
            w'.tree.read (standard.artifactPath e.name k) = .ok octets) ∧
        (∀ target ∈ builtIn, ∃ x, sharedText? standard.root target w' = some x ∧
          occurrences (target.markerOf apiPrefix e) x = 1) ∧
        ∃ again v, World.run (standard.run e.name e.name none) w' = (.ok again, v) ∧
          (∀ l, v.tree.get? l = w'.tree.get? l) ∧ ∀ r ∈ again.registrations, r.applied = false := by
  have texts : ∀ target ∈ builtIn, ∃ x, sharedText? standard.root target sharedWorld = some x ∧
      quietIn target [widget, ticket, widget] x = true ∧
      ∀ e ∈ [widget, ticket], occurrences (target.markerOf apiPrefix e) x = 0 := by
    have checks : ∀ target ∈ builtIn, (sharedText? standard.root target sharedWorld).any (fun x =>
        quietIn target [widget, ticket, widget] x &&
          [widget, ticket].all fun e => occurrences (target.markerOf apiPrefix e) x = 0) = true := by decide +kernel
    intro target mem
    obtain ⟨x, hx, facts⟩ := (Option.any_eq_true _ _).1 (checks target mem)
    exact ⟨x, hx, by simpa using facts⟩
  choose! text texts quiet absent using texts
  have both : ∀ e ∈ [widget, ticket, widget], e ∈ [widget, ticket] := by decide
  have ready : ∀ e ∈ [widget, ticket, widget], ∃ c, Ready e e.name c sharedWorld.tree := by
    intro e he
    obtain ⟨c, filled⟩ := filled_sharedWorld e (both e he)
    exact ⟨c, filled, accepts_sharedWorld e (both e he)⟩
  obtain ⟨w', runs⟩ := CleanRuns.of_ready ready texts quiet
  have closed : sharedWorld.tree.IsClosed := .of_nodes (by decide +kernel)
  have distinct : Distinct [widget, ticket, widget] := by
    unfold Distinct
    decide
  have single : ∀ target ∈ builtIn, ∀ x, sharedText? standard.root target sharedWorld = some x →
      ∀ e ∈ [widget, ticket, widget], occurrences (target.markerOf apiPrefix e) x ≤ 1 := by
    intro target mem x hx e he
    obtain rfl : text target = x := Option.some.inj ((texts target mem).symm.trans hx)
    rw [absent target mem e (both e he)]
    exact Nat.zero_le 1
  refine ⟨w', runs, fun e he => ?_⟩
  have member : ∀ e ∈ [widget, ticket], e ∈ [widget, ticket, widget] := by decide
  obtain ⟨alone, marked, again, v, run, same, -, idle⟩ :=
    repeated_runs closed distinct single runs e (member e he)
  exact ⟨alone, marked, again, v, run, same, idle⟩

end EntityScaffold.Run
