import EntityScaffold.Text.Case
import Mathlib.Data.List.Infix

/-
Lower case by the full mapping, against the lower case of the letters A to Z alone: a needle is found in both alike,
unless a character beyond ASCII can put a part of it there.
-/

namespace EntityScaffold.Text

/-- A needle that only letters of the alphabet, and characters without a case, put into a text in lower case: beyond
ASCII, the sign for kelvins becomes a `k`, and a dotted capital I an `i` with its dot after it. -/
structure IsPlainNeedle (n : Text) : Prop where
  plain : ∀ d ∈ n, d.toNat < 128 ∧ d ≠ 'k'
  last : n.getLast? ≠ some 'i'

theorem IsPlainNeedle.tail {d : Char} {n : Text} (h : IsPlainNeedle (d :: n)) : IsPlainNeedle n := by
  refine ⟨fun c hc => h.plain c (List.mem_cons_of_mem d hc), ?_⟩
  cases n with
  | nil => simp
  | cons c n => simpa using h.last

/-- What becomes of one character in lower case. -/
inductive LowerForm (c : Char) : Text → Prop
  | alphabet : LowerForm c [c.toLower]
  | beyond {d : Char} (hc : 127 < c.toNat) (hd : 127 < d.toNat ∨ d = 'k') : LowerForm c [d]
  | dotted (hc : c = 'İ') : LowerForm c ['i', '\u0307']

def IsCapital (c : Char) : Prop := 65 ≤ c.toNat ∧ c.toNat ≤ 90

theorem toLower_of_not_capital {c : Char} (h : ¬ IsCapital c) : c.toLower = c := by
  exact dif_neg fun hc => h hc

theorem toLower_of_capital {c : Char} (h : IsCapital c) : c.toLower = Char.ofNat (c.toNat + 32) := by
  apply Char.toNat_inj.1
  have valid : (c.toNat + 32).isValidChar := by
    have := h.2
    exact Or.inl (by omega)
  have code : (Char.ofNat (c.toNat + 32)).toNat = c.toNat + 32 := by
    rw [Char.ofNat, dif_pos valid]
    rfl
  have capital : c.val ≥ 'A'.val ∧ c.val ≤ 'Z'.val := h
  have lowered : c.toLower.val = c.val + 32 := congrArg Char.val (dif_pos capital)
  rw [code, Char.toNat, lowered]
  change (c.val + 32).toNat = c.val.toNat + 32
  have small : c.val.toNat ≤ 90 := h.2
  rw [UInt32.toNat_add]
  exact Nat.mod_eq_of_lt (show c.val.toNat + 32 < 4294967296 by omega)

theorem lowerForm_lowerChar (c : Char) : LowerForm c (lowerChar c) := by
  have runs : ∀ r ∈ lowerRuns, (r.first = 65 ∧ r.last = 90 ∧ r.shift = 32) ∨
      (127 < r.first ∧ ((127 < r.first + r.shift ∧ (r.last + r.shift < 0xD800 ∨
        (0xDFFF < r.first + r.shift ∧ r.last + r.shift < 0x110000))) ∨
        (r.first = r.last ∧ r.first + r.shift = 107))) := by decide +kernel
  unfold lowerChar otherCase
  split
  · next p hp =>
    have hmem := List.mem_of_find?_eq_some hp
    have hc : p.1 = c.toNat := by simpa using List.find?_some hp
    obtain rfl : p = (304, [105, 775]) := by simpa [longLower] using hmem
    exact .dotted (Char.toNat_inj.1 hc.symm)
  · split
    · next r hr =>
      have held : r.holds c.toNat = true := by simpa using List.find?_some hr
      simp only [CaseRun.holds, Bool.and_eq_true, decide_eq_true_eq] at held
      rcases runs r (List.mem_of_find?_eq_some hr) with ⟨hfirst, hlast, hshift⟩ | ⟨hfirst, target⟩
      · have capital : IsCapital c := ⟨by omega, by omega⟩
        have code : (c.toNat + r.shift).toNat = c.toNat + 32 := by omega
        rw [code, ← toLower_of_capital capital]
        exact .alphabet
      · refine .beyond (by omega) ?_
        rcases target with ⟨high, valid⟩ | ⟨hlast, hk⟩
        · left
          have hvalid : (c.toNat + r.shift).toNat.isValidChar := by
            simp only [Nat.isValidChar]
            omega
          rw [Char.ofNat, dif_pos hvalid]
          change 127 < (c.toNat + r.shift).toNat
          omega
        · right
          have code : (c.toNat + r.shift).toNat = 107 := by omega
          rw [code]
    · next h =>
      have first : (⟨65, 90, 1, 32⟩ : CaseRun) ∈ lowerRuns := List.mem_cons_self
      have out := List.find?_eq_none.1 h _ first
      have small : ¬ IsCapital c := by
        simpa [CaseRun.holds, Nat.mod_one, IsCapital] using out
      have same := LowerForm.alphabet (c := c)
      rwa [toLower_of_not_capital small] at same

theorem lower_eq_lowerAfter (t : Text) : lower t = lowerAfter false t := by
  have plain (afterCased : Bool) (t : Text) (h : 'Σ' ∉ t) : t.flatMap lowerChar = lowerAfter afterCased t := by
    induction t generalizing afterCased with
    | nil => rfl
    | cons c r ih =>
      obtain ⟨hc, hr⟩ := not_or.1 (mt List.mem_cons.2 h)
      rw [List.flatMap_cons, lowerAfter, if_pos (Ne.symm hc), ih _ hr]
  unfold lower
  split
  · rfl
  · next h => exact plain false t (by simpa using h)

theorem lowerAfter_cons (afterCased : Bool) (c : Char) (r : Text) :
    ∃ u b, lowerAfter afterCased (c :: r) = u ++ lowerAfter b r ∧ LowerForm c u := by
  rw [lowerAfter]
  refine ⟨_, _, rfl, ?_⟩
  split
  · exact lowerForm_lowerChar c
  · next h =>
    obtain rfl : c = 'Σ' := by simpa using h
    split
    · exact .beyond (by decide) (Or.inl (by decide))
    · exact .beyond (by decide) (Or.inl (by decide))

variable {n : Text}

theorem IsPlainNeedle.prefix_lower_iff (h : IsPlainNeedle n) (afterCased : Bool) (t : Text) :
    n <+: lowerAfter afterCased t ↔ n <+: t.map Char.toLower := by
  induction t generalizing n afterCased with
  | nil => rfl
  | cons c r ih =>
    cases n with
    | nil => simp
    | cons d n =>
      obtain ⟨hd, hk⟩ := h.plain d List.mem_cons_self
      obtain ⟨u, b, htext, form⟩ := lowerAfter_cons afterCased c r
      rw [htext, List.map_cons]
      cases form with
      | alphabet => rw [List.singleton_append, List.cons_prefix_cons, List.cons_prefix_cons, ih h.tail]
      | @beyond x hc hx =>
        have foreign : d ≠ x := by
          rintro rfl
          rcases hx with hx | hx
          · omega
          · exact hk hx
        have outside : d ≠ c.toLower := by
          rw [toLower_of_not_capital fun capital => by have := capital.2; omega]
          rintro rfl
          omega
        simp [foreign, outside]
      | dotted hc =>
        have outside : d ≠ c.toLower := by
          rintro rfl
          rw [hc] at hd
          exact absurd hd (by decide)
        cases n with
        | nil =>
          have last : d ≠ 'i' := by simpa using h.last
          simp [last, outside]
        | cons d' n =>
          have dot : d' ≠ '\u0307' := by
            rintro rfl
            exact absurd (h.plain _ (List.mem_cons_of_mem d List.mem_cons_self)).1 (by decide)
          simp [dot, outside]

theorem IsPlainNeedle.infix_lowerAfter_iff (h : IsPlainNeedle n) (hn : n ≠ []) (afterCased : Bool) (t : Text) :
    n <:+: lowerAfter afterCased t ↔ n <:+: t.map Char.toLower := by
  induction t generalizing afterCased with
  | nil => rfl
  | cons c r ih =>
    have start := h.prefix_lower_iff afterCased (c :: r)
    obtain ⟨u, b, htext, form⟩ := lowerAfter_cons afterCased c r
    rw [List.map_cons] at start ⊢
    rw [htext] at start ⊢
    rw [List.infix_cons_iff, ← start, ← ih b]
    cases form with
    | alphabet => rw [List.singleton_append, List.infix_cons_iff]
    | beyond => rw [List.singleton_append, List.infix_cons_iff]
    | dotted =>
      have dot : ¬ n <+: '\u0307' :: lowerAfter b r := by
        obtain ⟨d, n, rfl⟩ := List.exists_cons_of_ne_nil hn
        intro hp
        obtain ⟨rfl, -⟩ := List.cons_prefix_cons.1 hp
        exact absurd (h.plain _ List.mem_cons_self).1 (by decide)
      rw [List.cons_append, List.singleton_append, List.infix_cons_iff, List.infix_cons_iff, or_iff_right dot]

theorem IsPlainNeedle.infix_lower_iff (h : IsPlainNeedle n) (hn : n ≠ []) (t : Text) :
    n <:+: lower t ↔ n <:+: t.map Char.toLower := by
  rw [lower_eq_lowerAfter]
  exact h.infix_lowerAfter_iff hn false t

theorem eq_of_mem_lowerChar {c d : Char} (h : d ∈ lowerChar c) (hd : d.toNat < 65) : d = c := by
  have form := lowerForm_lowerChar c
  generalize lowerChar c = u at form h
  cases form with
  | alphabet =>
    obtain rfl := List.mem_singleton.1 h
    by_cases capital : IsCapital c
    · have valid : (c.toNat + 32).isValidChar := by
        have := capital.2
        exact Or.inl (by omega)
      have code : (Char.ofNat (c.toNat + 32)).toNat = c.toNat + 32 := by
        rw [Char.ofNat, dif_pos valid]
        rfl
      rw [toLower_of_capital capital, code] at hd
      have := capital.1
      omega
    · exact toLower_of_not_capital capital
  | beyond hc hd' =>
    obtain rfl := List.mem_singleton.1 h
    rcases hd' with high | rfl
    · omega
    · exact absurd hd (by decide)
  | dotted hc =>
    simp only [List.mem_cons, List.not_mem_nil, or_false] at h
    rcases h with rfl | rfl
    · exact absurd hd (by decide)
    · exact absurd hd (by decide)

theorem mem_upperChar {c d : Char} (h : d ∈ upperChar c) : d = c ∨ IsCapital d ∨ 127 < d.toNat := by
  have runs : ∀ r ∈ upperRuns, 0 ≤ r.first + r.shift ∧ ((65 ≤ r.first + r.shift ∧ r.last + r.shift ≤ 90) ∨
      (127 < r.first + r.shift ∧ (r.last + r.shift < 0xD800 ∨
        (0xDFFF < r.first + r.shift ∧ r.last + r.shift < 0x110000)))) := by decide +kernel
  have long : ∀ p ∈ longUpper, ∀ n ∈ p.2, IsCapital (Char.ofNat n) ∨ 127 < (Char.ofNat n).toNat := by
    unfold IsCapital
    decide +kernel
  unfold upperChar otherCase at h
  split at h
  · next p hp =>
    obtain ⟨n, hn, rfl⟩ := List.mem_map.1 h
    exact Or.inr (long p (List.mem_of_find?_eq_some hp) n hn)
  · split at h
    · next r hr =>
      obtain rfl := List.mem_singleton.1 h
      obtain ⟨positive, range⟩ := runs r (List.mem_of_find?_eq_some hr)
      have held : r.holds c.toNat = true := by simpa using List.find?_some hr
      simp only [CaseRun.holds, Bool.and_eq_true, decide_eq_true_eq] at held
      have valid : (c.toNat + r.shift).toNat.isValidChar := by
        simp only [Nat.isValidChar]
        omega
      have code : (Char.ofNat (c.toNat + r.shift).toNat).toNat = (c.toNat + r.shift).toNat := by
        rw [Char.ofNat, dif_pos valid]
        rfl
      right
      rw [IsCapital, code]
      omega
    · exact Or.inl (List.mem_singleton.1 h)

theorem mem_of_mem_upper {t : Text} {d : Char} (h : d ∈ upper t) (hd : ¬ IsCapital d) (small : d.toNat < 128) : d ∈ t := by
  obtain ⟨c, hc, hd'⟩ := List.mem_flatMap.1 h
  rcases mem_upperChar hd' with rfl | capital | high
  · exact hc
  · exact absurd capital hd
  · omega

end EntityScaffold.Text
