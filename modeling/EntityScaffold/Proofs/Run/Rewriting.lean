import EntityScaffold.Proofs.Run.Session
import EntityScaffold.Proofs.Run.SharedFiles
import EntityScaffold.Proofs.Run.Writing
import EntityScaffold.Proofs.SharedFile.Splices

/-
What registering an entity does to the octets of a shared file: when they are written anew, and what is left of them. The
blocks that are put in are all that is new, but for the line ends, which become line feeds.
-/

namespace EntityScaffold.Run

open SharedFile
open FileTree (Change)
open Text (unifyLineEnds)

variable {t u : FileTree} {p root : Path} {dry : Bool} {target : Target} {context : Template.Context}
variable {content raw : Text} {octets : Octets} {report : Registration} {f : Failure}

theorem read_ne_encode {n : Nat} {new : Text} (shown : textAt t p = .ok content) (blocks : WithBlocks '\n' content n new)
    (some : n ≠ 0) : t.read p ≠ .ok (Utf8.encode new) := by
  intro same
  obtain ⟨octets, hread, htext⟩ := textAt_ok_iff.1 shown
  obtain ⟨raw, hraw, rfl⟩ := textOfOctets_ok_iff.1 htext
  obtain rfl := Except.ok.inj (hread.symm.trans same)
  obtain rfl : new = raw := by simpa [Utf8.decode_encode] using hraw
  have fewer := blocks.count_le
  have := Text.count_le_unifyLineEnds new
  omega

theorem reportOf_applied_iff :
    (reportOf target (target.register context content)).applied = true ↔
      (target.register context content).left content ≠ content := by
  unfold Target.register
  split
  · simp [reportOf, Outcome.left]
  · simp [reportOf, Outcome.left, (applyInsertions_accounts context content target.insertions).1.eq_iff,
      Nat.pos_iff_ne_zero]

namespace Registered

/-- The file is written anew, with the text that the insertions leave, or the tree is the same. -/
theorem cases_of_ok (h : Registered p dry target context t (.ok report) u) :
    (dry = false ∧ report.applied = true ∧ ∃ content, textAt t p = .ok content ∧
      report.insertions = (applyInsertions context content target.insertions).applied ∧
      (applyInsertions context content target.insertions).applied ≠ 0 ∧
      u.read p = .ok (Utf8.encode (applyInsertions context content target.insertions).content)) ∨
    (¬ (dry = false ∧ report.applied = true) ∧ u = t) := by
  cases h with
  | @kept seen h idle =>
    refine Or.inr ⟨?_, rfl⟩
    rintro ⟨real, applied⟩
    cases seen with
    | none => simp [reportFor] at applied
    | some content => exact reportOf_applied_iff.1 applied ((idle content rfl).resolve_left (by simp [real]))
  | @patched content n _ h real new written =>
    have applied := reportOf_applied_iff.2 new
    refine Or.inl ⟨real, applied, content, sharedAt_some_iff.1 h, ?_⟩
    rw [reportFor]
    unfold Target.register at new applied written ⊢
    split at new
    · exact absurd rfl new
    · next missing =>
      rw [if_neg missing] at applied written ⊢
      refine ⟨rfl, ?_, written.read⟩
      simpa [reportOf, Nat.pos_iff_ne_zero] using applied

theorem change_of_error (h : Registered p dry target context t (.error f) u) : Change Set.univ ∅ t u := by
  cases h with
  | unseen => exact .refl _ _ _
  | unwritten _ _ _ refused =>
    cases refused with
    | refused change _ _ => exact change.mono (Set.subset_univ _) (le_refl _)

end Registered

/-- Insertions only insert, and what is counted and warned of is what happened; and a shared file is written anew exactly when
some were made and it is no dry run. -/
theorem register_accounts (context : Template.Context) :
    (∀ (content : Text) (is : List Insertion),
      let s := applyInsertions context content is
      WithBlocks '\n' content s.applied s.content ∧ content.Sublist s.content ∧ (s.content = content ↔ s.applied = 0) ∧
        s.applied = (atTurn context content is (Insertion.isDue context)).length ∧
        s.warnings = (atTurn context content is (Insertion.isLost context)).map fun i =>
          anchorWarning (Template.substitute i.anchor context)) ∧
    ∀ (root : Path) (dry : Bool) (target : Target) (entity : Text) (t : FileTree),
      (register root dry target entity context).Ensures t fun r u =>
        match r with
        | .ok report =>
          (∃ seen, sharedAt t (root / target.place) = .ok seen ∧ report = reportFor target context seen) ∧
          (u.read (root / target.place) ≠ t.read (root / target.place) ↔ dry = false ∧ report.applied = true) ∧
          if dry = false ∧ report.applied = true then
            ∃ content, textAt t (root / target.place) = .ok content ∧
              report.insertions = (applyInsertions context content target.insertions).applied ∧
              u.read (root / target.place) =
                .ok (Utf8.encode (applyInsertions context content target.insertions).content)
          else u = t
        | .error _ => u.file? = t.file? := by
  constructor
  · intro content is
    obtain ⟨blocks, applied, warnings⟩ := applyInsertions_accounts context content is
    exact ⟨blocks, blocks.sublist, blocks.eq_iff, applied, warnings⟩
  · intro root dry target entity t
    refine (ensures_register root dry target entity context t).mono ?_
    rintro (f | report) u registered
    · have change := registered.change_of_error
      exact change.file?_eq
    · refine ⟨registered.seen, ?_⟩
      rcases registered.cases_of_ok with ⟨real, applied, content, shown, counted, some, new⟩ | ⟨idle, rfl⟩
      · have blocks := (applyInsertions_accounts context content target.insertions).1
        rw [if_pos ⟨real, applied⟩, new]
        exact ⟨iff_of_true (read_ne_encode shown blocks some).symm ⟨real, applied⟩, content, shown, counted, rfl⟩
      · rw [if_neg idle]
        exact ⟨iff_of_false (fun h => h rfl) idle, rfl⟩

/-- The octets of a shared file are left, with the blocks that are put in, exactly when it has no carriage return: its other
line ends become line feeds with the first block. Where nothing is put in, or the registration fails, the file is left as it is. -/
theorem register_octets (root : Path) (dry : Bool) (target : Target) (entity : Text) (context : Template.Context)
    (hread : t.read (root / target.place) = .ok octets) (hraw : Utf8.decode octets = .ok raw) :
    (Utf8.encode (unifyLineEnds raw) = octets ↔ '\r' ∉ raw) ∧
    (register root dry target entity context).Ensures t fun r u =>
      match r with
      | .ok report =>
        if dry = false ∧ report.applied = true then
          ∃ n after, report.insertions = (n : Nat) ∧ u.read (root / target.place) = .ok after ∧
            WithBlocks 10 (Utf8.encode (unifyLineEnds raw)) n after
        else u.read (root / target.place) = .ok octets
      | .error _ => u.read (root / target.place) = .ok octets := by
  constructor
  · rw [← Utf8.decode_eq_ok_iff, hraw, Except.ok.injEq, eq_comm]
    exact Text.unifyLineEnds_eq_self_iff
  · refine (ensures_register root dry target entity context t).mono ?_
    rintro (f | report) u registered
    · exact registered.change_of_error.read (Set.notMem_empty _) hread
    · rcases registered.cases_of_ok with ⟨real, applied, content, shown, counted, -, new⟩ | ⟨idle, rfl⟩
      · have blocks := (applyInsertions_accounts context content target.insertions).1
        obtain ⟨octets', hread', htext⟩ := textAt_ok_iff.1 shown
        obtain ⟨raw', hraw', rfl⟩ := textOfOctets_ok_iff.1 htext
        obtain rfl := Except.ok.inj (hread.symm.trans hread')
        obtain rfl := Except.ok.inj (hraw.symm.trans hraw')
        dsimp only
        rw [if_pos ⟨real, applied⟩]
        exact ⟨_, _, counted, new, blocks.encode⟩
      · dsimp only
        rw [if_neg idle]
        exact hread

/-- A router with its anchors, on lines that end with line feeds, or with a carriage return before each. -/
def routerText (lineEnd : Text) : Text :=
  "const router = Router();".toList ++ lineEnd ++ "export default router;".toList ++ lineEnd

def registering : Job Registration :=
  register Path.here false router widget.name (entityContext widget.name apiPrefix.text)

theorem register_octets_router :
    ∃ after, (World.run registering (routerWorld (routerText ['\n']))).2.tree.read (Path.here / router.place) = .ok after ∧
      WithBlocks 10 (Utf8.encode (routerText ['\n'])) 2 after := by
  have hread : (routerWorld (routerText ['\n'])).tree.read (Path.here / router.place) =
    .ok (Utf8.encode (routerText ['\n'])) := by decide +kernel
  have clean : '\r' ∉ routerText ['\n'] := by decide +kernel
  obtain ⟨kept, ensures⟩ := register_octets Path.here false router widget.name
    (entityContext widget.name apiPrefix.text) hread (Utf8.decode_encode _)
  have made : (World.run registering (routerWorld (routerText ['\n']))).1.toOption.map
      (fun report => (report.applied, report.insertions)) = some (true, 2) := by decide +kernel
  obtain ⟨report, hrun, hreport⟩ := Job.run_eq_ok made
  obtain ⟨applied, counted⟩ := Prod.mk.inj hreport
  have ends := ensures.of_run hrun
  dsimp only at ends
  rw [if_pos ⟨rfl, applied⟩] at ends
  obtain ⟨n, after, hn, hafter, blocks⟩ := ends
  rw [counted] at hn
  obtain rfl : n = 2 := by omega
  rw [kept.2 clean] at blocks
  exact ⟨after, hafter, blocks⟩

/-- Where the lines end with carriage returns, those are gone. -/
theorem carriageReturns_lost_router :
    ∃ after, (World.run registering (routerWorld (routerText ['\r', '\n']))).2.tree.read (Path.here / router.place) =
        .ok after ∧
      ∀ n, ¬ WithBlocks 10 (Utf8.encode (routerText ['\r', '\n'])) n after := by
  have lost : ((World.run registering (routerWorld (routerText ['\r', '\n']))).2.tree.read
      (Path.here / router.place)).toOption.map
      (fun after => decide ((Utf8.encode (routerText ['\r', '\n'])).Sublist after)) = some false := by decide +kernel
  cases hread : (World.run registering (routerWorld (routerText ['\r', '\n']))).2.tree.read
      (Path.here / router.place) with
  | error r => simp [hread, Except.toOption] at lost
  | ok after =>
    refine ⟨after, rfl, fun n blocks => ?_⟩
    simp [hread, Except.toOption, blocks.sublist] at lost

end EntityScaffold.Run
