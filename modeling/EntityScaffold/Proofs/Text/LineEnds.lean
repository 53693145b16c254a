import EntityScaffold.Text.Lines
import EntityScaffold.Proofs.Text.Search

/- One spelling for the line ends of a file changes nothing for needles of one line, and loses no line end. -/

namespace EntityScaffold.Text

theorem prefix_unifyLineEnds {needle t : Text} (hr : '\r' ∉ needle) (hn : '\n' ∉ needle) :
    needle <+: unifyLineEnds t ↔ needle <+: t := by
  fun_induction unifyLineEnds t generalizing needle with
  | case1 => rfl
  | case2 r ih =>
    cases needle with
    | nil => simp
    | cons d needle =>
      have hdr : d ≠ '\r' := fun e => hr (e ▸ List.mem_cons_self)
      have hdn : d ≠ '\n' := fun e => hn (e ▸ List.mem_cons_self)
      simp [hdr, hdn]
  | case3 c r _ ih =>
    cases needle with
    | nil => simp
    | cons d needle =>
      have hdr : d ≠ '\r' := fun e => hr (e ▸ List.mem_cons_self)
      have hdn : d ≠ '\n' := fun e => hn (e ▸ List.mem_cons_self)
      have rest := ih (fun h => hr (List.mem_cons_of_mem d h)) fun h => hn (List.mem_cons_of_mem d h)
      by_cases hc : c = '\r'
      · simp [hc, hdr, hdn]
      · rw [if_neg hc, List.cons_prefix_cons, List.cons_prefix_cons, rest]

theorem occurrences_unifyLineEnds {needle : Text} (hne : needle ≠ []) (hr : '\r' ∉ needle) (hn : '\n' ∉ needle)
    (t : Text) :
    occurrences needle (unifyLineEnds t) = occurrences needle t := by
  have start (c : Char) (r s : Text) (h : needle <+: c :: r ↔ needle <+: s) :
      needle.isPrefixOf (c :: r) = needle.isPrefixOf s := by
    rw [Bool.eq_iff_iff, List.isPrefixOf_iff_prefix, List.isPrefixOf_iff_prefix]
    exact h
  fun_induction unifyLineEnds t with
  | case1 => rfl
  | case2 r ih =>
    have none (c : Char) (hc : c ∉ needle) (s : Text) : needle.isPrefixOf (c :: s) = false := by
      rw [Bool.eq_false_iff, ne_eq, List.isPrefixOf_iff_prefix]
      intro hp
      obtain ⟨d, m, rfl⟩ := List.exists_cons_of_ne_nil hne
      exact hc ((List.cons_prefix_cons.1 hp).1 ▸ List.mem_cons_self)
    simp [occurrences, none _ hr, none _ hn, ih]
  | case3 c r hcr ih =>
    have whole := prefix_unifyLineEnds (t := c :: r) hr hn
    rw [unifyLineEnds] at whole
    · rw [occurrences, occurrences, ih, start _ _ _ whole]
    · exact hcr

theorem infix_unifyLineEnds {needle : Text} (hne : needle ≠ []) (hr : '\r' ∉ needle) (hn : '\n' ∉ needle) {t : Text} :
    needle <:+: unifyLineEnds t ↔ needle <:+: t := by
  rw [← occurrences_pos_iff hne, ← occurrences_pos_iff hne, occurrences_unifyLineEnds hne hr hn]

theorem unifyLineEnds_eq_self_iff {t : Text} : unifyLineEnds t = t ↔ '\r' ∉ t := by
  refine ⟨fun same => ?_, unifyLineEnds_of_not_mem⟩
  rw [← same]
  exact not_mem_unifyLineEnds t

theorem count_le_unifyLineEnds (t : Text) : t.count '\n' ≤ (unifyLineEnds t).count '\n' := by
  fun_induction unifyLineEnds t with
  | case1 => exact Nat.le_refl _
  | case2 r ih => simpa using ih
  | case3 c r _ ih =>
    by_cases hc : c = '\r'
    · rw [if_pos hc, hc, List.count_cons_self, List.count_cons_of_ne (by decide)]
      exact Nat.le_succ_of_le ih
    · rw [if_neg hc, List.count_cons, List.count_cons]
      exact Nat.add_le_add_right ih _

end EntityScaffold.Text
