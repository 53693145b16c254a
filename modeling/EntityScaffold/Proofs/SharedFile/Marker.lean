import EntityScaffold.Proofs.SharedFile.Settled
import Mathlib.Algebra.BigOperators.Group.List.Basic

/-
The markers of entities over registrations: none is lost, and a registration adds its own at most, and that once.
-/

namespace EntityScaffold.SharedFile

open Naming (Identifier AddressPrefix)
open Text (lines occurrences occurrencesIn)

variable {i k : Insertion} {t : Target} {p : AddressPrefix} {e f : Identifier}

theorem Target.IsStable.occurrences_next (h : t.IsStable p) (hi : i ∈ t.insertions) (e f : Identifier) (s : Spliced) :
    occurrences (t.markerOf p f) s.content ≤
        occurrences (t.markerOf p f) (s.next (entityContext e.name p.text) i).content ∧
      occurrences (t.markerOf p f) (s.next (entityContext e.name p.text) i).content ≤
        occurrences (t.markerOf p f) s.content + occurrencesIn (t.markerOf p f) (i.linesOf p e) := by
  rcases h.next_cases hi e s with same | ⟨us, old, new, vs, before, after, entered⟩
  · rw [same]
    exact ⟨Nat.le_refl _, Nat.le_add_right _ _⟩
  · have counted := entered.occurrencesIn_eq (h.marker e f i hi)
    have hne := (h.neat f).ne_nil
    have hline := (h.neat f).not_mem
    rw [Text.occurrences_eq_lines hne hline, Text.occurrences_eq_lines hne hline, before, after]
    simp only [Text.occurrencesIn_append]
    omega

def markersIn (t : Target) (p : AddressPrefix) (e f : Identifier) (is : List Insertion) : Nat :=
  (is.map fun i => occurrencesIn (t.markerOf p f) (i.linesOf p e)).sum

theorem Target.IsStable.markersIn_insertions (h : t.IsStable p) (e f : Identifier) :
    markersIn t p e f t.insertions = if t.markerOf p f = t.markerOf p e then 1 else 0 := by
  obtain ⟨i, is, hi⟩ := h.once.first
  have others : markersIn t p e f is = 0 := by
    refine List.sum_eq_zero fun n hn => ?_
    obtain ⟨j, hj, rfl⟩ := List.mem_map.1 hn
    exact h.once.others i is hi j hj e f
  rw [hi, markersIn, List.map_cons, List.sum_cons, h.once.own i is hi, ← markersIn, others, Nat.add_zero]

theorem Target.IsStable.occurrences_foldl (h : t.IsStable p) (f : Identifier) {is : List Insertion}
    (sub : is ⊆ t.insertions) (s : Spliced) :
    occurrences (t.markerOf p f) s.content ≤
        occurrences (t.markerOf p f) (is.foldl (Spliced.next (entityContext e.name p.text)) s).content ∧
      occurrences (t.markerOf p f) (is.foldl (Spliced.next (entityContext e.name p.text)) s).content ≤
        occurrences (t.markerOf p f) s.content + markersIn t p e f is := by
  induction is generalizing s with
  | nil => exact ⟨Nat.le_refl _, Nat.le_refl _⟩
  | cons i is ih =>
    obtain ⟨hi, sub⟩ := List.cons_subset.1 sub
    obtain ⟨least, most⟩ := ih sub (s.next (entityContext e.name p.text) i)
    have step := h.occurrences_next hi e f s
    simp only [List.foldl_cons, markersIn, List.map_cons, List.sum_cons] at least most ⊢
    omega

/-- What a registration does to the markers of all entities: none is lost, and only the one of the registered entity is
added, where it was missing. -/
theorem Target.IsStable.occurrences_register (h : t.IsStable p) (e f : Identifier) (content : Text) :
    let left := (t.register (entityContext e.name p.text) content).left content
    occurrences (t.markerOf p f) content ≤ occurrences (t.markerOf p f) left ∧
      occurrences (t.markerOf p f) left ≤ max 1 (occurrences (t.markerOf p f) content) ∧
      (occurrences (t.markerOf p f) left ≠ occurrences (t.markerOf p f) content → t.markerOf p f = t.markerOf p e) := by
  intro left
  by_cases there : Text.has content (t.markerOf p e) = true
  · have same : left = content := by
      change (Target.register t _ content).left content = content
      rw [Target.register_of_has there, Outcome.left]
    rw [same]
    exact ⟨Nat.le_refl _, Nat.le_max_right _ _, fun hne => absurd rfl hne⟩
  · have made : left = (applyInsertions (entityContext e.name p.text) content t.insertions).content := by
      change (Target.register t _ content).left content = _
      rw [Target.register_of_missing there, Outcome.left]
    have missing : occurrences (t.markerOf p e) content = 0 := by
      rw [Text.occurrences_eq_zero_iff (h.neat e).ne_nil, ← Text.has_iff]
      exact there
    obtain ⟨least, most⟩ := h.occurrences_foldl (e := e) f (List.Subset.refl t.insertions) { content := content }
    rw [h.markersIn_insertions] at most
    change occurrences _ content ≤ occurrences _ (applyInsertions _ content t.insertions).content at least
    change occurrences _ (applyInsertions _ content t.insertions).content ≤ occurrences _ content + _ at most
    rw [made]
    by_cases own : t.markerOf p f = t.markerOf p e
    · rw [if_pos own] at most
      refine ⟨least, ?_, fun _ => own⟩
      rw [own] at most ⊢
      simp only [missing] at most ⊢
      omega
    · rw [if_neg own] at most
      exact ⟨least, by omega, by omega⟩

end EntityScaffold.SharedFile
