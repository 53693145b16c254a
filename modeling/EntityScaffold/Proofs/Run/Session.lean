import EntityScaffold.Proofs.FileTree.Room
import EntityScaffold.Proofs.Run.SharedFiles
import EntityScaffold.Proofs.SharedFile.Characters
import EntityScaffold.Proofs.SharedFile.Complete
import EntityScaffold.Proofs.Text.LineEnds

/-
Runs of registrations in one shared file: what becomes of the markers, when a registration is complete, and when it is idle.
-/

namespace EntityScaffold.Run

open SharedFile
open Naming (Identifier AddressPrefix)
open Text (lines occurrences unifyLineEnds)

variable {t : Target} {root : Path} {p : AddressPrefix} {e f : Identifier} {w w' : World} {text : Text}

def registerEntity (root : Path) (t : Target) (p : AddressPrefix) (e : Identifier) : Job Registration :=
  register root false t e.name (entityContext e.name p.text)

/-- The world after entities were registered one after the other. -/
def afterCalls (root : Path) (t : Target) (p : AddressPrefix) (es : List Identifier) (w : World) : World :=
  es.foldl (fun w e => (World.run (registerEntity root t p e) w).2) w

def sharedText? (root : Path) (t : Target) (w : World) : Option Text :=
  fileText? w.tree (root / Path.ofText t.filePath)

def outcomeOf (t : Target) (p : AddressPrefix) (e : Identifier) (text : Text) : Outcome :=
  t.register (entityContext e.name p.text) (unifyLineEnds text)

/-- A shared file can be replaced: the whole path of the temporary file next to it is not too long. -/
def IsReplaceable (root : Path) (t : Target) (w : World) : Prop :=
  (Utf8.encode (w.tree.wholeTemporary (root / t.place)).text).length < FileTree.longestPath

instance (root : Path) (t : Target) (w : World) : Decidable (IsReplaceable root t w) :=
  inferInstanceAs (Decidable (_ < _))

theorem length_name_place (ht : t ∈ builtIn) : (Utf8.encode t.place.name).length + 14 ≤ FileTree.longestName := by
  revert t
  decide

theorem hasRoom_iff_isReplaceable (ht : t ∈ builtIn) : w.tree.HasRoom (root / t.place) ↔ IsReplaceable root t w := by
  rw [FileTree.hasRoom_iff, (place_source ht).name_div]
  exact and_iff_right (length_name_place ht)

/-- How a call ends in a file that holds a text: it reports the outcome, and leaves the text of that outcome; or the file cannot
be replaced, and keeps its text. -/
inductive Called (root : Path) (t : Target) (p : AddressPrefix) (e : Identifier) (text : Text) (w : World) :
    Except Failure Registration → World → Prop
  | reported {w' : World} {after : Text} (there : sharedText? root t w' = some after)
      (left : unifyLineEnds after = (outcomeOf t p e text).left (unifyLineEnds text))
      (same : (outcomeOf t p e text).left (unifyLineEnds text) = unifyLineEnds text → w'.tree = w.tree) :
      Called root t p e text w (.ok (reportOf t (outcomeOf t p e text))) w'
  | refused {w' : World} {f : Failure} (there : sharedText? root t w' = some text)
      (new : (outcomeOf t p e text).left (unifyLineEnds text) ≠ unifyLineEnds text)
      (full : ¬ IsReplaceable root t w) : Called root t p e text w (.error f) w'

theorem unifyLineEnds_left (ht : t ∈ builtIn) (p : AddressPrefix) (e : Identifier) (text : Text) :
    unifyLineEnds ((outcomeOf t p e text).left (unifyLineEnds text)) = (outcomeOf t p e text).left (unifyLineEnds text) :=
  Text.unifyLineEnds_of_not_mem ((isStable_of_mem_builtIn ht p).not_mem_register (Text.not_mem_unifyLineEnds text))

theorem Called.of_registered {r : Except Failure Registration} (ht : t ∈ builtIn) (h : sharedText? root t w = some text)
    (registered : Registered (root / t.place) false t (entityContext e.name p.text) w.tree r w'.tree) :
    Called root t p e text w r w' := by
  have seen : sharedAt w.tree (root / t.place) = .ok (some (unifyLineEnds text)) :=
    sharedAt_some_iff.2 (textAt_of_fileText? h)
  have shown {content : Text} (found : sharedAt w.tree (root / t.place) = .ok (some content)) :
      content = unifyLineEnds text := Option.some.inj (Except.ok.inj (found.symm.trans seen))
  generalize hu : w'.tree = u at registered
  cases registered with
  | kept found idle =>
    obtain rfl := Except.ok.inj (found.symm.trans seen)
    have same := (idle _ rfl).resolve_left (by simp)
    exact .reported ((congrArg (fileText? · _) hu).trans h) same.symm fun _ => hu
  | patched found _ new written =>
    obtain rfl := shown found
    have there : sharedText? root t w' = some _ := (congrArg (fileText? · _) hu).trans (fileText?_of_read written.read)
    exact .reported there (unifyLineEnds_left ht p e text) fun same => absurd same new
  | unseen lost => exact absurd (lost.symm.trans seen) (by simp)
  | unwritten found _ new refused =>
    obtain rfl := shown found
    cases refused with | refused change shut _ =>
    obtain ⟨octets, hread, hdecode⟩ := read_of_fileText? h
    have kept : u.read (root / t.place) = .ok octets := change.read (Set.notMem_empty _) hread
    have there : fileText? u (root / t.place) = some text := by
      simp only [fileText?, kept, hdecode, Except.toOption]
    refine .refused ((congrArg (fileText? · _) hu).trans there) new fun replaceable => shut ?_
    exact ⟨FileTree.admits_of_read hread, (hasRoom_iff_isReplaceable ht).2 replaceable⟩

theorem run_registerEntity (ht : t ∈ builtIn) (h : sharedText? root t w = some text) (p : AddressPrefix)
    (e : Identifier) :
    ∃ r w', World.run (registerEntity root t p e) w = (r, w') ∧ Called root t p e text w r w' := by
  have registered := ensures_register root false t e.name (entityContext e.name p.text) w.tree w rfl
  exact ⟨_, _, rfl, .of_registered ht h registered⟩

theorem occurrences_marker (ht : t ∈ builtIn) (p : AddressPrefix) (f : Identifier) (text : Text) :
    occurrences (t.markerOf p f) (unifyLineEnds text) = occurrences (t.markerOf p f) text := by
  have neat := (isStable_of_mem_builtIn ht p).neat f
  refine Text.occurrences_unifyLineEnds neat.ne_nil ?_ neat.not_mem text
  intro hm
  exact absurd (neat.oneLine '\r' hm) (by decide)

theorem counts_of_call {after : Text} (ht : t ∈ builtIn)
    (hleft : unifyLineEnds after = (outcomeOf t p e text).left (unifyLineEnds text)) (f : Identifier) :
    occurrences (t.markerOf p f) text ≤ occurrences (t.markerOf p f) after ∧
      occurrences (t.markerOf p f) after ≤ max 1 (occurrences (t.markerOf p f) text) ∧
      (occurrences (t.markerOf p f) after ≠ occurrences (t.markerOf p f) text → t.markerOf p f = t.markerOf p e) := by
  rw [← occurrences_marker ht p f text, ← occurrences_marker ht p f after, hleft]
  exact (isStable_of_mem_builtIn ht p).occurrences_register e f (unifyLineEnds text)

namespace Called

variable {r : Except Failure Registration}

/-- Whether it reports or not, a call loses no marker, and adds one at most where its own was missing. -/
theorem counts (h : Called root t p e text w r w') (ht : t ∈ builtIn) :
    ∃ after, sharedText? root t w' = some after ∧ ∀ f : Identifier,
      occurrences (t.markerOf p f) text ≤ occurrences (t.markerOf p f) after ∧
        occurrences (t.markerOf p f) after ≤ max 1 (occurrences (t.markerOf p f) text) ∧
        (occurrences (t.markerOf p f) after ≠ occurrences (t.markerOf p f) text → t.markerOf p f = t.markerOf p e) := by
  cases h with
  | reported there left _ => exact ⟨_, there, counts_of_call ht left⟩
  | refused there _ _ => exact ⟨text, there, fun f => ⟨Nat.le_refl _, Nat.le_max_right _ _, fun ne => absurd rfl ne⟩⟩

theorem of_ok {report : Registration} (h : Called root t p e text w (.ok report) w') :
    report = reportOf t (outcomeOf t p e text) ∧ ∃ after, sharedText? root t w' = some after ∧
      unifyLineEnds after = (outcomeOf t p e text).left (unifyLineEnds text) ∧
      ((outcomeOf t p e text).left (unifyLineEnds text) = unifyLineEnds text → w'.tree = w.tree) := by
  cases h with
  | reported there left same => exact ⟨rfl, _, there, left, same⟩

theorem reports (h : Called root t p e text w r w') (replaceable : IsReplaceable root t w) : ∃ report, r = .ok report := by
  cases h with
  | reported _ _ _ => exact ⟨_, rfl⟩
  | refused _ _ full => exact absurd replaceable full

theorem reports_idle (h : Called root t p e text w r w')
    (idle : (outcomeOf t p e text).left (unifyLineEnds text) = unifyLineEnds text) :
    r = .ok (reportOf t (outcomeOf t p e text)) ∧ w'.tree = w.tree := by
  cases h with
  | reported _ _ same => exact ⟨rfl, same idle⟩
  | refused _ new _ => exact absurd idle new

end Called

theorem isReplaceable_afterCalls (es : List Identifier) :
    IsReplaceable root t (afterCalls root t p es w) ↔ IsReplaceable root t w := by
  induction es generalizing w with
  | nil => exact Iff.rfl
  | cons e es ih =>
    have registered := ensures_register root false t e.name (entityContext e.name p.text) w.tree w rfl
    rw [afterCalls, List.foldl_cons, ← afterCalls, ih, IsReplaceable, IsReplaceable, FileTree.wholeTemporary,
      FileTree.wholeTemporary, registerEntity, registered.change_univ.work]

theorem sharedText?_afterCalls (ht : t ∈ builtIn) (p : AddressPrefix) (es : List Identifier)
    (h : sharedText? root t w = some text) :
    ∃ after, sharedText? root t (afterCalls root t p es w) = some after ∧ ∀ f : Identifier,
      occurrences (t.markerOf p f) text ≤ occurrences (t.markerOf p f) after ∧
        occurrences (t.markerOf p f) after ≤ max 1 (occurrences (t.markerOf p f) text) := by
  induction es generalizing w text with
  | nil => exact ⟨text, h, fun f => ⟨Nat.le_refl _, Nat.le_max_right _ _⟩⟩
  | cons e es ih =>
    obtain ⟨r, w', hrun, call⟩ := run_registerEntity ht h p e
    obtain ⟨next, hnext, step⟩ := call.counts ht
    obtain ⟨after, hafter, counts⟩ := ih hnext
    rw [afterCalls, List.foldl_cons, hrun]
    refine ⟨after, hafter, fun f => ?_⟩
    obtain ⟨least, most, -⟩ := step f
    obtain ⟨least', most'⟩ := counts f
    omega

theorem has_marker_iff (ht : t ∈ builtIn) (p : AddressPrefix) (e : Identifier) (text : Text) :
    Text.has (unifyLineEnds text) (t.markerOf p e) = true ↔ 0 < occurrences (t.markerOf p e) text := by
  rw [Text.has_iff, ← Text.occurrences_pos_iff ((isStable_of_mem_builtIn ht p).neat e).ne_nil, occurrences_marker ht]

theorem warnings_reportOf (t : Target) (o : Outcome) : (reportOf t o).warnings = o.warnings := by
  cases o with
  | registered => rfl
  | spliced s => rfl

theorem marker_of_silent {after : Text} (ht : t ∈ builtIn)
    (hleft : unifyLineEnds after = (outcomeOf t p e text).left (unifyLineEnds text))
    (silent : (reportOf t (outcomeOf t p e text)).warnings = []) : 0 < occurrences (t.markerOf p e) after := by
  rw [warnings_reportOf] at silent
  rw [← has_marker_iff ht, hleft]
  exact (isStable_of_mem_builtIn ht p).has_of_silent silent

theorem idle_of_has_marker (ht : t ∈ builtIn) (h : 0 < occurrences (t.markerOf p e) text) :
    outcomeOf t p e text = .registered :=
  Target.register_of_has ((has_marker_iff ht p e text).2 h)

/-- Over any run of registrations in a shared file, no marker is lost, and none occurs more than once unless it did
at the start; a call changes the count of its own marker only, and reports where the file can be replaced. From a call that
reports nothing amiss on, its marker is there and registering the entity again changes nothing. -/
theorem markers_over_calls (ht : t ∈ builtIn) (p : AddressPrefix) (h : sharedText? root t w = some text)
    (es : List Identifier) (e : Identifier) :
    ∃ before r w' after,
      sharedText? root t (afterCalls root t p es w) = some before ∧
      World.run (registerEntity root t p e) (afterCalls root t p es w) = (r, w') ∧
      sharedText? root t w' = some after ∧
      (IsReplaceable root t w → ∃ report, r = .ok report) ∧
      (∀ f : Identifier,
        occurrences (t.markerOf p f) before ≤ occurrences (t.markerOf p f) after ∧
          occurrences (t.markerOf p f) after ≤ max 1 (occurrences (t.markerOf p f) text) ∧
          (occurrences (t.markerOf p f) after ≠ occurrences (t.markerOf p f) before →
            t.markerOf p f = t.markerOf p e)) ∧
      (∀ report, r = .ok report → report.warnings = [] → ∀ fs : List Identifier, ∃ later again w'',
        sharedText? root t (afterCalls root t p fs w') = some later ∧
          t.markerOf p e <:+: later ∧
          World.run (registerEntity root t p e) (afterCalls root t p fs w') = (.ok again, w'') ∧
          again.applied = false ∧ w''.tree = (afterCalls root t p fs w').tree) := by
  obtain ⟨before, hbefore, counts⟩ := sharedText?_afterCalls ht p es h
  obtain ⟨r, w', hrun, call⟩ := run_registerEntity ht hbefore p e
  obtain ⟨after, hafter, step⟩ := call.counts ht
  refine ⟨before, r, w', after, hbefore, hrun, hafter, ?_, ?_, ?_⟩
  · intro replaceable
    exact call.reports ((isReplaceable_afterCalls es).2 replaceable)
  · intro f
    obtain ⟨least, most, own⟩ := step f
    obtain ⟨least', most'⟩ := counts f
    exact ⟨least, by omega, own⟩
  · rintro report rfl silent fs
    obtain ⟨rfl, after', hafter', hleft, -⟩ := call.of_ok
    obtain rfl := Option.some.inj (hafter.symm.trans hafter')
    have marked := marker_of_silent ht hleft silent
    obtain ⟨later, hlater, counts'⟩ := sharedText?_afterCalls ht p fs hafter
    have still : 0 < occurrences (t.markerOf p e) later := lt_of_lt_of_le marked (counts' e).1
    have idle := idle_of_has_marker ht still
    obtain ⟨_, w'', hagain, again⟩ := run_registerEntity ht hlater p e
    obtain ⟨rfl, hsame⟩ := again.reports_idle (by rw [idle]; rfl)
    rw [idle] at hagain
    have present := (Text.occurrences_pos_iff ((isStable_of_mem_builtIn ht p).neat e).ne_nil).1 still
    exact ⟨later, _, w'', hlater, present, hagain, rfl, hsame⟩

def routerWorld (text : Text) : World where
  tree := {
    nodes := [
      (["work".toList], .folder),
      (["work".toList, "src".toList], .folder),
      (["work".toList, "src".toList, "routes".toList], .folder),
      (["work".toList, "src".toList, "routes".toList, "v1.ts".toList], .file (Utf8.encode text))]
    work := ["work".toList] }

theorem sharedText?_routerWorld (text : Text) : sharedText? Path.here router (routerWorld text) = some text :=
  fileText?_of_read rfl

/-- Entities and an address prefix to try the results on. -/
def widget : Identifier := ⟨"Widget".toList, by decide, by decide⟩

def ticket : Identifier := ⟨"Ticket".toList, by decide, by decide⟩

def apiPrefix : AddressPrefix := ⟨"/api/v1".toList, by decide⟩

def plainRouter : Text := "const router = Router();\nexport default router;\n".toList

theorem markers_over_calls_router :
    ∃ before report w' after,
      let start := routerWorld plainRouter
      sharedText? Path.here router (afterCalls Path.here router apiPrefix [widget, ticket] start) = some before ∧
      World.run (registerEntity Path.here router apiPrefix widget)
        (afterCalls Path.here router apiPrefix [widget, ticket] start) = (.ok report, w') ∧
      sharedText? Path.here router w' = some after ∧
      (∀ f ∈ [widget, ticket], occurrences (router.markerOf apiPrefix f) before ≤ occurrences (router.markerOf apiPrefix f) after ∧
        occurrences (router.markerOf apiPrefix f) after ≤ 1) ∧
      report.warnings = [] ∧
      ∃ later again w'',
        sharedText? Path.here router (afterCalls Path.here router apiPrefix [ticket, widget] w') = some later ∧
          router.markerOf apiPrefix widget <:+: later ∧
          World.run (registerEntity Path.here router apiPrefix widget)
            (afterCalls Path.here router apiPrefix [ticket, widget] w') = (.ok again, w'') ∧
          again.applied = false ∧ w''.tree = (afterCalls Path.here router apiPrefix [ticket, widget] w').tree := by
  obtain ⟨before, r, w', after, hbefore, hrun, hafter, reports, counts, later⟩ := markers_over_calls (by decide) apiPrefix
    (sharedText?_routerWorld plainRouter) [widget, ticket] widget
  obtain ⟨report, rfl⟩ := reports (by decide +kernel)
  have missing : ∀ f ∈ [widget, ticket], occurrences (router.markerOf apiPrefix f) plainRouter = 0 := by decide +kernel
  have silent : (World.run (registerEntity Path.here router apiPrefix widget)
      (afterCalls Path.here router apiPrefix [widget, ticket] (routerWorld plainRouter))).1.toOption.map (·.warnings) =
      some [] := by decide +kernel
  rw [hrun] at silent
  have silent : report.warnings = [] := Option.some.inj silent
  refine ⟨before, report, w', after, hbefore, hrun, hafter, fun f hf => ?_, silent, later report rfl silent _⟩
  obtain ⟨least, most, -⟩ := counts f
  rw [missing f hf] at most
  exact ⟨least, most⟩

theorem left_of_isIdle {o : Outcome} {content : Text} (h : o.IsIdle content) : o.left content = content := by
  cases o with
  | registered => rfl
  | spliced s => exact h.1

/-- Registering an entity a second time right after the first is idle, anchors and sections missing or not, in a file
where no line holds both an anchor and the start of a section's tag. The first one reports where the file can be replaced. -/
theorem registerEntity_idle (ht : t ∈ builtIn) (p : AddressPrefix) (h : sharedText? root t w = some text)
    (apart : t.KeepsApart (lines (unifyLineEnds text))) (e : Identifier) :
    ∃ r w', World.run (registerEntity root t p e) w = (r, w') ∧
      (IsReplaceable root t w → ∃ first, r = .ok first) ∧
      ∀ first, r = .ok first → ∃ second w'',
        World.run (registerEntity root t p e) w' = (.ok second, w'') ∧
        second.applied = false ∧ second.insertions = 0 ∧ w''.tree = w'.tree := by
  obtain ⟨r, w', hrun, call⟩ := run_registerEntity ht h p e
  refine ⟨r, w', hrun, call.reports, ?_⟩
  rintro first rfl
  obtain ⟨rfl, after, hafter, hleft, -⟩ := call.of_ok
  have idle : (outcomeOf t p e after).IsIdle (unifyLineEnds after) := by
    rw [outcomeOf, hleft]
    exact (isStable_of_mem_builtIn ht p).isIdle_again apart
  obtain ⟨_, w'', hagain, again⟩ := run_registerEntity ht hafter p e
  obtain ⟨rfl, hsame⟩ := again.reports_idle (left_of_isIdle idle)
  refine ⟨_, w'', hagain, ?_⟩
  cases ho : outcomeOf t p e after with
  | registered => exact ⟨rfl, rfl, hsame⟩
  | spliced s =>
    rw [ho] at idle
    exact ⟨by simp [reportOf, idle.2], by simp [reportOf, idle.2], hsame⟩

theorem registerEntity_idle_router :
    ∃ first w' second w'',
      World.run (registerEntity Path.here router apiPrefix widget) (routerWorld "export default router;\n".toList) =
        (.ok first, w') ∧
      World.run (registerEntity Path.here router apiPrefix widget) w' = (.ok second, w'') ∧
      second.applied = false ∧ second.insertions = 0 ∧ w''.tree = w'.tree := by
  obtain ⟨r, w', hrun, reports, idle⟩ := registerEntity_idle (by decide) apiPrefix
    (sharedText?_routerWorld "export default router;\n".toList) (by decide +kernel) widget
  obtain ⟨first, rfl⟩ := reports (by decide +kernel)
  obtain ⟨second, w'', hagain, facts⟩ := idle first rfl
  exact ⟨first, w', second, w'', hrun, hagain, facts⟩

theorem present_of_isComplete (ht : t ∈ builtIn)
    (complete : t.IsComplete p e (unifyLineEnds text)) {i : Insertion} (hi : i ∈ t.insertions) :
    present text (Template.substitute i.snippet (entityContext e.name p.text)) = true := by
  have renders := (isStable_of_mem_builtIn ht p).renders e i hi
  rw [renders.snippet_eq, present_ended_iff renders.block_ne_nil renders.neat]
  intro l hl
  have neat := renders.neat l hl
  have hr : '\r' ∉ l := fun hm => absurd (neat.oneLine '\r' hm) (by decide)
  rw [← Text.infix_unifyLineEnds neat.ne_nil hr neat.not_mem, Text.infix_iff_lines neat.ne_nil neat.not_mem]
  exact complete i hi l hl

theorem Called.keeps_complete {r : Except Failure Registration} (h : Called root t p e text w r w') (ht : t ∈ builtIn)
    (complete : t.IsComplete p f (unifyLineEnds text)) :
    ∃ after, sharedText? root t w' = some after ∧ t.IsComplete p f (unifyLineEnds after) := by
  cases h with
  | reported there left _ =>
    refine ⟨_, there, ?_⟩
    rw [left]
    exact (isStable_of_mem_builtIn ht p).isComplete_register complete
  | refused there _ _ => exact ⟨text, there, complete⟩

theorem isComplete_afterCalls (ht : t ∈ builtIn) (p : AddressPrefix) (es : List Identifier)
    (h : sharedText? root t w = some text) (complete : t.IsComplete p f (unifyLineEnds text)) :
    ∃ after, sharedText? root t (afterCalls root t p es w) = some after ∧ t.IsComplete p f (unifyLineEnds after) := by
  induction es generalizing w text with
  | nil => exact ⟨text, h, complete⟩
  | cons e es ih =>
    obtain ⟨r, w', hrun, call⟩ := run_registerEntity ht h p e
    obtain ⟨next, hnext, complete'⟩ := call.keeps_complete ht complete
    rw [afterCalls, List.foldl_cons, hrun]
    exact ih hnext complete'

/-- A call reports where the marker is there or the file can be replaced, and it reports that nothing was done, and nothing
amiss, just where the marker is there. Where a call found no marker and reports nothing amiss, the file has every line of all
its insertions, after any further calls too. -/
theorem registered_iff_marked (ht : t ∈ builtIn) (p : AddressPrefix) (h : sharedText? root t w = some text)
    (e : Identifier) :
    ∃ r w', World.run (registerEntity root t p e) w = (r, w') ∧
      (IsReplaceable root t w ∨ t.markerOf p e <:+: text → ∃ report, r = .ok report) ∧
      ∀ report, r = .ok report →
        (report.applied = false ∧ report.warnings = [] ↔ t.markerOf p e <:+: text) ∧
        (report.warnings = [] → ¬ t.markerOf p e <:+: text → ∀ fs : List Identifier, ∃ later,
          sharedText? root t (afterCalls root t p fs w') = some later ∧ ∀ i ∈ t.insertions,
            present later (Template.substitute i.snippet (entityContext e.name p.text)) = true) := by
  have stable := isStable_of_mem_builtIn ht p
  have marked : Text.has (unifyLineEnds text) (t.markerOf p e) = true ↔ t.markerOf p e <:+: text := by
    rw [has_marker_iff ht, Text.occurrences_pos_iff (stable.neat e).ne_nil]
  have idle (there : t.markerOf p e <:+: text) : outcomeOf t p e text = .registered :=
    Target.register_of_has (marked.2 there)
  obtain ⟨r, w', hrun, call⟩ := run_registerEntity ht h p e
  refine ⟨r, w', hrun, ?_, ?_⟩
  · rintro (replaceable | there)
    · exact call.reports replaceable
    · exact ⟨_, (call.reports_idle (by rw [idle there]; rfl)).1⟩
  rintro report rfl
  obtain ⟨rfl, after, hafter, hleft, -⟩ := call.of_ok
  constructor
  · rw [← marked]
    constructor
    · rintro ⟨notApplied, silent⟩
      refine stable.has_of_idle fun s hs => ?_
      rw [outcomeOf, hs] at notApplied silent
      exact ⟨by simpa [reportOf] using notApplied, silent⟩
    · intro there
      rw [outcomeOf, Target.register_of_has there]
      exact ⟨rfl, rfl⟩
  · intro silent missing fs
    rw [warnings_reportOf] at silent
    have complete : t.IsComplete p e (unifyLineEnds after) := by
      rw [hleft]
      exact stable.isComplete_of_silent (mt marked.1 missing) silent
    obtain ⟨later, hlater, complete'⟩ := isComplete_afterCalls ht p fs hafter complete
    exact ⟨later, hlater, fun i hi => present_of_isComplete ht complete' hi⟩

theorem registered_iff_marked_router :
    ∃ report w' later, World.run (registerEntity Path.here router apiPrefix widget) (routerWorld plainRouter) =
        (.ok report, w') ∧
      ¬ (report.applied = false ∧ report.warnings = []) ∧ ¬ router.markerOf apiPrefix widget <:+: plainRouter ∧
      sharedText? Path.here router (afterCalls Path.here router apiPrefix [ticket, widget] w') = some later ∧
      ∀ i ∈ router.insertions,
        present later (Template.substitute i.snippet (entityContext widget.name apiPrefix.text)) = true := by
  obtain ⟨r, w', hrun, reports, facts⟩ := registered_iff_marked (by decide) apiPrefix
    (sharedText?_routerWorld plainRouter) widget
  obtain ⟨report, rfl⟩ := reports (Or.inl (by decide +kernel))
  obtain ⟨idle, complete⟩ := facts report rfl
  have missing : ¬ router.markerOf apiPrefix widget <:+: plainRouter := by decide +kernel
  have silent : (World.run (registerEntity Path.here router apiPrefix widget) (routerWorld plainRouter)).1.toOption.map
      (·.warnings) = some [] := by decide +kernel
  rw [hrun] at silent
  obtain ⟨later, hlater, lines⟩ := complete (Option.some.inj silent) missing [ticket, widget]
  exact ⟨report, w', later, hrun, mt idle.1 missing, missing, hlater, lines⟩

/-- A router without the anchor for its routes: registering the entity a second time reports nothing amiss, though the
line that uses its routes is missing. -/
theorem half_registered :
    ∃ report w' text,
      World.run (registerEntity Path.here router apiPrefix widget)
        (afterCalls Path.here router apiPrefix [widget] (routerWorld "const router = Router();\n".toList)) =
        (.ok report, w') ∧
      report.applied = false ∧ report.warnings = [] ∧ sharedText? Path.here router w' = some text ∧
      ∃ i ∈ router.insertions,
        present text (Template.substitute i.snippet (entityContext widget.name apiPrefix.text)) = false := by
  have patched : sharedText? Path.here router
      (afterCalls Path.here router apiPrefix [widget] (routerWorld "const router = Router();\n".toList)) =
      some "import WidgetRoutes from './widgetRoutes';\nconst router = Router();\n".toList := by decide +kernel
  have registered : outcomeOf router apiPrefix widget
      "import WidgetRoutes from './widgetRoutes';\nconst router = Router();\n".toList = .registered := by decide +kernel
  obtain ⟨_, w', hagain, again⟩ := run_registerEntity (by decide) patched apiPrefix widget
  obtain ⟨rfl, same⟩ := again.reports_idle (by rw [registered]; rfl)
  rw [registered] at hagain
  have kept : sharedText? Path.here router w' = _ := (congrArg (fileText? · _) same).trans patched
  exact ⟨_, w', _, hagain, rfl, rfl, kept, router.insertions[1], by decide, by decide +kernel⟩

end EntityScaffold.Run
