import EntityScaffold.Proofs.FileTree.Closed
import EntityScaffold.Proofs.Run.SharedFiles

/-
What a run sees of the shared files. In a closed tree no file that the run writes brings another one up, so each shared
file is seen as it stood before the run.
-/

namespace EntityScaffold.Run

open FileTree (SourceChange)
open SharedFile (Target Registration builtIn)

variable {g : Generator} {t t₀ u : FileTree} {c : Template.Context} {w w' : Progress} {ts : List Target}
variable {target : Target} {rs : List Registration} {entity : Text} {root p q : Path} {files : Set Path}

/-- A shared file that is seen after other source files were written was seen before. -/
theorem sharedAt_of_change {s : Option Text} (closed : t₀.IsClosed) (rooted : t₀.IsRooted root) (hq : q.IsSource)
    (change : SourceChange root files t₀ t) (other : q ∉ files) (h : sharedAt t (root / q) = .ok s) :
    sharedAt t₀ (root / q) = .ok s := by
  have off : t₀.locationOf (root / q) ∉ t₀.sources root files := FileTree.locationOf_not_mem_sources hq other
  cases s with
  | some content =>
    rw [sharedAt_some_iff, textAt_ok_iff] at h ⊢
    obtain ⟨octets, hread, htext⟩ := h
    obtain ⟨-, -, -, file⟩ := FileTree.read_eq_ok_iff.1 hread
    rw [change.locationOf, change.file_iff off] at file
    exact ⟨octets, (change.read_iff off (closed.way rooted hq file)).1 hread, htext⟩
  | none =>
    have noFile : t.look (root / q) ≠ .ok .file := by
      intro hlook
      obtain ⟨octets, hread⟩ := FileTree.look_file_iff.1 hlook
      simp only [sharedAt, hlook] at h
      cases htext : textAt t (root / q) <;> simp [htext, Except.map] at h
    cases hlook : t₀.look (root / q) with
    | ok sight =>
      cases sight with
      | nothing => simp only [sharedAt, hlook]
      | folder => simp only [sharedAt, hlook]
      | file =>
        obtain ⟨octets, hread⟩ := FileTree.look_file_iff.1 hlook
        exact absurd (FileTree.look_of_read (change.read off hread)) noFile
    | error r =>
      rw [sharedAt, change.look_error hlook] at h
      exact absurd h (by simp)

def Progress.withRegistrations (w : Progress) (rs : List Registration) : Progress :=
  rs.foldl Progress.withRegistration w

@[simp] theorem Progress.registrations_withRegistrations :
    (w.withRegistrations rs).report.registrations = w.report.registrations ++ rs := by
  induction rs generalizing w with
  | nil => simp [withRegistrations]
  | cons r rs ih =>
    refine ih.trans ?_
    simp [withRegistration]

@[simp] theorem Progress.errors_withRegistrations : (w.withRegistrations rs).report.errors = w.report.errors := by
  induction rs generalizing w with
  | nil => rfl
  | cons r rs ih => exact ih

/-- What is reported for a shared file as a tree shows it. -/
def Generator.reportIn (g : Generator) (c : Template.Context) (t : FileTree) (target : Target) : Registration :=
  reportFor target c ((sharedAt t (g.root / target.place)).toOption.getD none)

theorem Generator.reportIn_eq {s : Option Text} (h : sharedAt t (g.root / target.place) = .ok s) :
    g.reportIn c t target = reportFor target c s := by
  rw [reportIn, h]
  rfl

/-- Where no error comes up, all shared files are reported as the closed tree shows them that stood before all changes. -/
theorem registerAll_seen (closed : t₀.IsClosed) (rooted : t₀.IsRooted g.root) (sub : ts ⊆ builtIn) (nodup : ts.Nodup)
    (before : SourceChange g.root files t₀ t) (others : ∀ target ∈ ts, target.place ∉ files)
    (ends : (registerAll g entity c ts w).Ends t (.ok w') u) (silent : w'.report.errors = []) :
    (∀ target ∈ ts, ∃ s, sharedAt t₀ (g.root / target.place) = .ok s) ∧
      w' = w.withRegistrations (ts.map (g.reportIn c t₀)) := by
  induction ts generalizing w t files with
  | nil =>
    have same : (registerAll g entity c [] w).Ensures t fun r _ => r = .ok w := Job.ensures_pure rfl
    exact ⟨by simp, Except.ok.inj (same.of_ends ends)⟩
  | cons target ts ih =>
    obtain ⟨mem, sub⟩ := List.cons_subset.1 sub
    obtain ⟨fresh, nodup⟩ := List.nodup_cons.1 nodup
    have source := SharedFile.place_source mem
    obtain ⟨w₁, t₁, first, rest⟩ := ends.bind_ok
    obtain ⟨-, -, ⟨errors, herrors, -⟩, -⟩ := (ensures_registeredAll sub w₁ t₁).of_ends rest w' rfl
    have silent₁ : w₁.report.errors = [] := (List.append_eq_nil_iff.1 (herrors.symm.trans silent)).1
    cases (ensures_registerOne g entity c w target t).of_ends first with
    | reported registered =>
      obtain ⟨s, hs, rfl⟩ := registered.seen
      have hs := sharedAt_of_change closed rooted source before (others target List.mem_cons_self) hs
      have further : ∀ target' ∈ ts, target'.place ∉ files ∪ {target.place} := by
        rintro target' ht' (hm | hm)
        · exact others target' (List.mem_cons_of_mem _ ht') hm
        · exact fresh (SharedFile.place_inj (sub ht') mem hm ▸ ht')
      obtain ⟨seen, hw'⟩ := ih sub nodup (before.trans (registered.sourceChange source)) further rest
      constructor
      · intro target' ht'
        rcases List.mem_cons.1 ht' with rfl | ht'
        · exact ⟨s, hs⟩
        · exact seen target' ht'
      · rw [hw', List.map_cons, Generator.reportIn_eq hs]
        rfl
    | noted _ => simp [Progress.withError] at silent₁

theorem ensures_registerAll_dry (dry : g.dryRun = true)
    (seen : ∀ target ∈ ts, ∃ s, sharedAt t (g.root / target.place) = .ok s) (w : Progress) :
    (registerAll g entity c ts w).Ensures t fun r u =>
      r = .ok (w.withRegistrations (ts.map (g.reportIn c t))) ∧ u = t := by
  induction ts generalizing w with
  | nil => exact Job.ensures_pure ⟨rfl, rfl⟩
  | cons target ts ih =>
    obtain ⟨s, hs⟩ := seen target List.mem_cons_self
    have settled {r : Except Failure Registration} {u : FileTree}
        (h : Registered (g.root / target.place) g.dryRun target c t r u) : r = .ok (reportFor target c s) ∧ u = t := by
      refine ⟨?_, h.tree_of_dry dry⟩
      cases h with
      | kept h _ => rw [Except.ok.inj (h.symm.trans hs)]
      | patched _ real _ _ => exact absurd (real.symm.trans dry) (by simp)
      | unseen h => exact absurd (h.symm.trans hs) (by simp)
      | unwritten _ real _ _ => exact absurd (real.symm.trans dry) (by simp)
    refine (ensures_registerOne g entity c w target t).bind ?_ ?_
    · intro w₁ t₁ step
      cases step with
      | reported h =>
        obtain ⟨hr, rfl⟩ := settled h
        rw [Except.ok.inj hr, ← Generator.reportIn_eq (c := c) hs]
        exact ih (fun target' ht' => seen target' (List.mem_cons_of_mem _ ht')) _
      | noted h => exact absurd (settled h).1 (by simp)
    · intro f u step
      cases step with | stopped h _ => exact absurd (settled h).1 (by simp)

end EntityScaffold.Run
