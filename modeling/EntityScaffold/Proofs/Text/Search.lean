import EntityScaffold.Text.Basic
import Mathlib.Data.List.Infix

/-
Where a needle stands in a text that is put together from two: in the first, in the second, or across the seam. How often a
needle occurs is counted by the places it starts at.
-/

namespace EntityScaffold.Text

/-- What holds of all characters of a text is decided along the text, and not by going through all characters there are. -/
instance (priority := 2000) decidableForallMem (t : Text) (p : Char → Prop) [DecidablePred p] :
    Decidable (∀ c ∈ t, p c) := List.decidableBAll p t

/-- How often the needle starts in the text. -/
def occurrences (needle : Text) : Text → Nat
  | [] => 0
  | c :: r => (if needle.isPrefixOf (c :: r) then 1 else 0) + occurrences needle r

/-- The needle stands across the seam of two texts, with a part in each. -/
def Straddles (needle a b : Text) : Prop :=
  ∃ s p, s ≠ [] ∧ p ≠ [] ∧ needle = s ++ p ∧ s <:+ a ∧ p <+: b

theorem has_iff {t needle : Text} : has t needle = true ↔ needle <:+: t := by
  unfold has
  induction t with
  | nil => cases needle <;> simp [cut?]
  | cons c r ih =>
    by_cases h : needle.isPrefixOf (c :: r) = true
    · simpa [cut?, h] using (List.isPrefixOf_iff_prefix.1 h).isInfix
    · have hp : ¬ needle <+: c :: r := fun hp => h (List.isPrefixOf_iff_prefix.2 hp)
      simp [cut?, h, ih, List.infix_cons_iff, hp]

theorem cut?_eq_none_iff {needle t : Text} : cut? needle t = none ↔ ¬ needle <:+: t := by
  rw [← has_iff, has]
  cases cut? needle t <;> simp

theorem occurrences_pos_iff {needle t : Text} (hn : needle ≠ []) : 0 < occurrences needle t ↔ needle <:+: t := by
  induction t with
  | nil => simp [occurrences, hn]
  | cons c r ih =>
    rw [occurrences, List.infix_cons_iff, ← ih, ← List.isPrefixOf_iff_prefix]
    by_cases h : needle.isPrefixOf (c :: r) = true
    · rw [if_pos h]
      exact ⟨fun _ => Or.inl h, fun _ => by omega⟩
    · simp [h]

theorem occurrences_eq_zero_iff {needle t : Text} (hn : needle ≠ []) :
    occurrences needle t = 0 ↔ ¬ needle <:+: t := by
  rw [← occurrences_pos_iff hn]
  omega

theorem prefix_of_not_straddles {needle a b : Text} (ha : a ≠ []) (h : ¬ Straddles needle a b)
    (hp : needle <+: a ++ b) : needle <+: a := by
  rcases List.prefix_or_prefix_of_prefix hp (List.prefix_append a b) with hl | ⟨p, rfl⟩
  · exact hl
  · by_cases hnil : p = []
    · simp [hnil]
    · exact absurd ⟨a, p, ha, hnil, rfl, List.suffix_refl a, (List.prefix_append_right_inj a).1 hp⟩ h

theorem Straddles.of_suffix {needle a b : Text} {c : Char} (h : Straddles needle a b) :
    Straddles needle (c :: a) b := by
  obtain ⟨s, p, hs, hp, he, hsa, hpb⟩ := h
  exact ⟨s, p, hs, hp, he, hsa.trans (List.suffix_cons c a), hpb⟩

/-- Where no needle straddles the seam, the two texts have the needles of the whole. -/
theorem occurrences_append {needle a b : Text} (h : ¬ Straddles needle a b) :
    occurrences needle (a ++ b) = occurrences needle a + occurrences needle b := by
  induction a with
  | nil => simp [occurrences]
  | cons c r ih =>
    have start : needle.isPrefixOf (c :: (r ++ b)) = needle.isPrefixOf (c :: r) := by
      rw [Bool.eq_iff_iff, List.isPrefixOf_iff_prefix, List.isPrefixOf_iff_prefix]
      constructor
      · exact prefix_of_not_straddles (List.cons_ne_nil c r) h
      · intro hp
        exact hp.trans (List.prefix_append (c :: r) b)
    rw [List.cons_append, occurrences, occurrences, start, ih fun hr => h hr.of_suffix]
    omega

theorem infix_append_iff {needle a b : Text} (hn : needle ≠ []) (h : ¬ Straddles needle a b) :
    needle <:+: a ++ b ↔ needle <:+: a ∨ needle <:+: b := by
  rw [← occurrences_pos_iff hn, ← occurrences_pos_iff hn, ← occurrences_pos_iff hn, occurrences_append h]
  omega

theorem not_straddles_concat {needle : Text} {c : Char} (hc : c ∉ needle) (a b : Text) :
    ¬ Straddles needle (a ++ [c]) b := by
  rintro ⟨s, p, hs, -, rfl, ⟨u, hu⟩, -⟩
  obtain ⟨s', d, rfl⟩ : ∃ s' d, s = s' ++ [d] := ⟨s.dropLast, s.getLast hs, (List.dropLast_concat_getLast hs).symm⟩
  rw [← List.append_assoc] at hu
  obtain ⟨-, rfl⟩ := List.append_inj' hu rfl |>.imp id (by simpa using ·)
  simp at hc

theorem not_straddles_cons {needle : Text} {c : Char} (hc : c ∉ needle) (a b : Text) :
    ¬ Straddles needle a (c :: b) := by
  rintro ⟨s, p, -, hp, rfl, -, hpb⟩
  rcases List.prefix_cons_iff.1 hpb with rfl | ⟨q, rfl, -⟩
  · exact hp rfl
  · simp at hc

theorem infix_append_cons_iff {needle : Text} {c : Char} (hn : needle ≠ []) (hc : c ∉ needle) (a b : Text) :
    needle <:+: a ++ c :: b ↔ needle <:+: a ∨ needle <:+: b := by
  rw [infix_append_iff hn (not_straddles_cons hc a b), List.infix_cons_iff]
  refine or_congr_right (or_iff_right ?_)
  intro hp
  obtain ⟨d, m, rfl⟩ := List.exists_cons_of_ne_nil hn
  obtain ⟨rfl, -⟩ := List.cons_prefix_cons.1 hp
  exact hc List.mem_cons_self

theorem not_straddles_of_head {c : Char} {m a : Text} (hc : c ∉ a) (b : Text) : ¬ Straddles (c :: m) a b := by
  rintro ⟨s, p, hs, -, he, hsa, -⟩
  obtain ⟨d, s, rfl⟩ := List.exists_cons_of_ne_nil hs
  obtain ⟨rfl, -⟩ := List.cons.inj (he.trans (List.cons_append ..))
  exact hc (hsa.subset List.mem_cons_self)

theorem occurrences_append_cons {needle : Text} {c : Char} (hc : c ∉ needle) (hn : needle ≠ []) (a b : Text) :
    occurrences needle (a ++ c :: b) = occurrences needle a + occurrences needle b := by
  have hhead : needle.isPrefixOf (c :: b) = false := by
    obtain ⟨d, m, rfl⟩ := List.exists_cons_of_ne_nil hn
    rw [Bool.eq_false_iff, ne_eq, List.isPrefixOf_iff_prefix, List.cons_prefix_cons]
    exact fun hp => hc (hp.1 ▸ List.mem_cons_self)
  rw [occurrences_append (not_straddles_cons hc a b), occurrences, hhead]
  simp

theorem cut?_append_left {needle a x y : Text} (h : cut? needle a = some (x, y)) (b : Text) :
    cut? needle (a ++ b) = some (x, y ++ b) := by
  induction a generalizing x with
  | nil =>
    obtain rfl : needle = [] := by
      by_contra hn
      simp [cut?, hn] at h
    obtain ⟨rfl, rfl⟩ : x = [] ∧ y = [] := by simpa [cut?, eq_comm] using h
    cases b <;> simp [cut?]
  | cons c r ih =>
    by_cases hp : needle <+: c :: r
    · have hpb : needle <+: c :: (r ++ b) := hp.trans (List.prefix_append (c :: r) b)
      rw [cut?, if_pos (List.isPrefixOf_iff_prefix.2 hp)] at h
      obtain ⟨rfl, rfl⟩ : [] = x ∧ c :: r = y := by simpa using h
      rw [List.cons_append, cut?, if_pos (List.isPrefixOf_iff_prefix.2 hpb)]
    · rw [cut?, if_neg (by simpa [List.isPrefixOf_iff_prefix] using hp)] at h
      obtain ⟨⟨x', y'⟩, hr, he⟩ := Option.map_eq_some_iff.1 h
      obtain ⟨rfl, rfl⟩ : c :: x' = x ∧ y' = y := by simpa using he
      have inside : needle.length ≤ (c :: r).length :=
        (has_iff.1 (by rw [has, hr]; rfl)).length_le.trans (Nat.le_succ _)
      have hpb : ¬ needle <+: c :: (r ++ b) := fun hpb =>
        hp (List.prefix_of_prefix_length_le hpb (List.prefix_append (c :: r) b) inside)
      rw [List.cons_append, cut?, if_neg (by simpa [List.isPrefixOf_iff_prefix] using hpb), ih hr]
      rfl

theorem cut?_single {c : Char} {t : Text} (h : c ∉ t) (r : Text) : cut? [c] (t ++ c :: r) = some (t, c :: r) := by
  induction t with
  | nil => simp [cut?]
  | cons d t ih =>
    obtain ⟨hd, ht⟩ := not_or.1 (mt List.mem_cons.2 h)
    simp [cut?, hd, ih ht]

theorem dropWhile_append_cons {p : Char → Bool} {c : Char} (hc : p c = false) (a r : Text) :
    (a ++ c :: r).dropWhile p = a.dropWhile p ++ c :: r := by
  induction a with
  | nil => simp [hc]
  | cons d a ih => by_cases hd : p d = true <;> simp [hd, ih]

theorem cut?_append_right {needle a b : Text} (ha : ¬ needle <:+: a) (h : ¬ Straddles needle a b) :
    cut? needle (a ++ b) = (cut? needle b).map fun p => (a ++ p.1, p.2) := by
  induction a with
  | nil => simp
  | cons c r ih =>
    have start : ¬ needle <+: c :: (r ++ b) := fun hp =>
      ha (prefix_of_not_straddles (List.cons_ne_nil c r) h hp).isInfix
    rw [List.cons_append, cut?, if_neg (by simpa [List.isPrefixOf_iff_prefix] using start),
      ih (fun hi => ha (List.infix_cons hi)) fun hr => h hr.of_suffix, Option.map_map]
    rfl

theorem prefix_iff_of_unique {c : Char} {u v x y : Text} (hu : c ∉ u) (hx : c ∉ x) :
    u ++ c :: v <+: x ++ c :: y ↔ u = x ∧ v <+: y := by
  induction u generalizing x with
  | nil =>
    cases x with
    | nil => simp
    | cons d x =>
      have hd : c ≠ d := fun e => hx (e ▸ List.mem_cons_self)
      simp [hd]
  | cons d u ih =>
    cases x with
    | nil =>
      have hd : d ≠ c := fun e => hu (e ▸ List.mem_cons_self)
      simp [hd]
    | cons e x =>
      have := ih (fun h => hu (List.mem_cons_of_mem d h)) fun h => hx (List.mem_cons_of_mem e h)
      simp only [List.cons_append, List.cons_prefix_cons, List.cons.injEq, this, and_assoc]

theorem occurrences_of_unique {c : Char} {u v x y : Text} (hu : c ∉ u) (hx : c ∉ x) (hy : c ∉ y) :
    occurrences (u ++ c :: v) (x ++ c :: y) = if u <:+ x ∧ v <+: y then 1 else 0 := by
  have hne : u ++ c :: v ≠ [] := by simp
  have hnone : occurrences (u ++ c :: v) y = 0 := by
    rw [occurrences_eq_zero_iff hne]
    intro h
    exact hy (h.subset (by simp))
  induction x with
  | nil =>
    have start : u ++ c :: v <+: c :: y ↔ u <:+ [] ∧ v <+: y := by
      simpa using prefix_iff_of_unique (v := v) (y := y) hu (List.not_mem_nil (a := c))
    simp only [List.nil_append, occurrences, hnone, List.isPrefixOf_iff_prefix, start, Nat.add_zero]
  | cons d x ih =>
    have start := prefix_iff_of_unique (v := v) (y := y) hu hx
    rw [List.cons_append] at start ⊢
    rw [occurrences, ih fun h => hx (List.mem_cons_of_mem d h)]
    simp only [List.isPrefixOf_iff_prefix, start, List.suffix_cons_iff]
    have short : u <:+ x → u ≠ d :: x := by
      rintro h rfl
      exact absurd h.length_le (by simp)
    by_cases hvy : v <+: y <;> by_cases hs : u <:+ x <;> simp [hvy, hs, short]

/-- A needle between two characters stands in a text where its middle is the text's own between the same two. -/
theorem occurrences_framed {c d : Char} {u w x y z : Text} (hu : c ∉ u) (hx : c ∉ x) (hy : c ∉ z ++ d :: y) (hw : d ∉ w)
    (hz : d ∉ z) : occurrences (u ++ c :: (w ++ [d])) (x ++ c :: (z ++ d :: y)) = if u <:+ x ∧ w = z then 1 else 0 := by
  rw [occurrences_of_unique hu hx hy]
  simp [prefix_iff_of_unique hw hz]

end EntityScaffold.Text
