import EntityScaffold.Text.Blank
import Mathlib.Data.List.TakeWhile

/- Blanks at the ends of a text are no part of what is stripped, and blanks between words part them. -/

namespace EntityScaffold.Text

def IsGap (t : Text) : Prop := ∀ c ∈ t, isBlank c = true

instance (t : Text) : Decidable (IsGap t) := inferInstanceAs (Decidable (∀ c ∈ t, isBlank c = true))

theorem strip_gap_append {a : Text} (h : IsGap a) (t : Text) : strip (a ++ t) = strip t := by
  rw [strip, strip, trim, trim, List.dropWhile_append_of_pos h]

theorem trimEnd_append_gap {b : Text} (h : IsGap b) (t : Text) : trimEnd isBlank (t ++ b) = trimEnd isBlank t := by
  have reversed : ∀ c ∈ b.reverse, isBlank c = true := fun c hc => h c (List.mem_reverse.1 hc)
  rw [trimEnd, trimEnd, List.reverse_append, List.dropWhile_append_of_pos reversed]

theorem strip_append_gap {b : Text} (h : IsGap b) (t : Text) : strip (t ++ b) = strip t := by
  by_cases ht : t.dropWhile isBlank = []
  · have all : IsGap t := List.dropWhile_eq_nil_iff.1 ht
    rw [strip_gap_append all, strip, strip, trim, trim, ht, List.dropWhile_eq_nil_iff.2 h]
  · rw [strip, strip, trim, trim, List.dropWhile_append, if_neg (by simpa using ht), trimEnd_append_gap h]

theorem exists_eq_gap_strip (t : Text) : ∃ a b, IsGap a ∧ IsGap b ∧ t = a ++ (strip t ++ b) := by
  have start := List.takeWhile_append_dropWhile (p := isBlank) (l := t)
  have finish := congrArg List.reverse
    (List.takeWhile_append_dropWhile (p := isBlank) (l := (t.dropWhile isBlank).reverse))
  rw [List.reverse_append, List.reverse_reverse] at finish
  refine ⟨t.takeWhile isBlank, ((t.dropWhile isBlank).reverse.takeWhile isBlank).reverse, ?_, ?_, ?_⟩
  · exact fun c hc => List.mem_takeWhile_imp hc
  · exact fun c hc => List.mem_takeWhile_imp (List.mem_reverse.1 hc)
  · rw [strip, trim, trimEnd, finish, start]

theorem strip_eq_nil_iff {t : Text} : strip t = [] ↔ IsGap t := by
  constructor
  · intro h
    obtain ⟨a, b, ha, hb, ht⟩ := exists_eq_gap_strip t
    rw [h, List.nil_append] at ht
    rw [ht]
    exact fun c hc => (List.mem_append.1 hc).elim (ha c) (hb c)
  · intro h
    have := strip_gap_append h []
    rwa [List.append_nil] at this

theorem words_cons_blank {c : Char} (hc : isBlank c = true) (r : Text) : words (c :: r) = words r := by
  simp [words, hc]

theorem words_ne_nil {c : Char} (hc : isBlank c = false) (r : Text) : words (c :: r) ≠ [] := by
  unfold words
  rw [if_neg (by simp [hc])]
  split
  · simp
  · split
    · simp
    · split <;> simp

theorem words_cons_cons {c : Char} (hc : isBlank c = false) (d : Char) (r : Text) :
    words (c :: d :: r) = if isBlank d then [c] :: words (d :: r) else (words (d :: r)).modifyHead (c :: ·) := by
  rw [words, if_neg (by simp [hc])]
  cases hd : isBlank d with
  | true => simp
  | false =>
    obtain ⟨w, ws, hw⟩ := List.exists_cons_of_ne_nil (words_ne_nil hd r)
    simp [hw]

theorem words_append_cons {c : Char} (hc : isBlank c = true) (x y : Text) :
    words (x ++ c :: y) = words x ++ words y := by
  induction x with
  | nil => simp [words, words_cons_blank hc]
  | cons d x ih =>
    cases hd : isBlank d with
    | true => simpa [words_cons_blank hd] using ih
    | false =>
      cases x with
      | nil => simp [words, hd, hc]
      | cons e x =>
        rw [List.cons_append] at ih
        rw [List.cons_append, List.cons_append, words_cons_cons hd, words_cons_cons hd, ih]
        cases he : isBlank e with
        | true => simp
        | false =>
          obtain ⟨w, ws, hw⟩ := List.exists_cons_of_ne_nil (words_ne_nil he x)
          simp [hw]

theorem words_of_gap {t : Text} (h : IsGap t) : words t = [] := by
  induction t with
  | nil => rfl
  | cons c t ih =>
    rw [words_cons_blank (h c List.mem_cons_self)]
    exact ih fun d hd => h d (List.mem_cons_of_mem c hd)

theorem words_ne_nil_of_not_gap {t : Text} (h : ¬ IsGap t) : words t ≠ [] := by
  induction t with
  | nil => exact absurd (fun c hc => absurd hc List.not_mem_nil) h
  | cons c t ih =>
    cases hc : isBlank c with
    | true =>
      rw [words_cons_blank hc]
      exact ih fun gap => h (List.forall_mem_cons.2 ⟨hc, gap⟩)
    | false => exact words_ne_nil hc t

theorem words_gap_append {a : Text} (h : IsGap a) (t : Text) : words (a ++ t) = words t := by
  induction a with
  | nil => rfl
  | cons c a ih =>
    rw [List.cons_append, words_cons_blank (h c List.mem_cons_self)]
    exact ih fun d hd => h d (List.mem_cons_of_mem c hd)

theorem words_append_gap {b : Text} (h : IsGap b) (t : Text) : words (t ++ b) = words t := by
  cases b with
  | nil => rw [List.append_nil]
  | cons c b =>
    have rest : IsGap b := fun d hd => h d (List.mem_cons_of_mem c hd)
    rw [words_append_cons (h c List.mem_cons_self), words_of_gap rest, List.append_nil]

theorem words_strip (t : Text) : words (strip t) = words t := by
  obtain ⟨a, b, ha, hb, ht⟩ := exists_eq_gap_strip t
  calc words (strip t) = words (a ++ (strip t ++ b)) := by rw [words_gap_append ha, words_append_gap hb]
    _ = words t := by rw [← ht]

theorem isBlank_of_mem_words {t w : Text} (h : w ∈ words t) : ∀ c ∈ w, isBlank c = false := by
  induction t generalizing w with
  | nil => simp [words] at h
  | cons c t ih =>
    cases hc : isBlank c with
    | true =>
      rw [words_cons_blank hc] at h
      exact ih h
    | false =>
      cases t with
      | nil =>
        obtain rfl : w = [c] := by simpa [words, hc] using h
        exact List.forall_mem_singleton.2 hc
      | cons d t =>
        rw [words_cons_cons hc] at h
        split at h
        · rcases List.mem_cons.1 h with rfl | h
          · exact List.forall_mem_singleton.2 hc
          · exact ih h
        · cases hw : words (d :: t) with
          | nil => simp [hw] at h
          | cons v vs =>
            rw [hw] at h ih
            rcases List.mem_cons.1 h with rfl | h
            · exact List.forall_mem_cons.2 ⟨hc, ih List.mem_cons_self⟩
            · exact ih (List.mem_cons_of_mem v h)

theorem words_of_word {w : Text} (nonempty : w ≠ []) (h : ∀ c ∈ w, isBlank c = false) : words w = [w] := by
  induction w with
  | nil => exact absurd rfl nonempty
  | cons c w ih =>
    obtain ⟨hc, hw⟩ := List.forall_mem_cons.1 h
    cases w with
    | nil => simp [words, hc]
    | cons d w =>
      rw [words_cons_cons hc, if_neg (by simp [hw d List.mem_cons_self]), ih (List.cons_ne_nil d w) hw]
      rfl

theorem prefix_append_iff {n x y : Text} (h : ∀ c, y.head? = some c → c ∉ n) : n <+: x ++ y ↔ n <+: x := by
  constructor
  · intro hn
    rcases List.prefix_or_prefix_of_prefix hn (List.prefix_append x y) with hx | ⟨p, rfl⟩
    · exact hx
    · cases p with
      | nil => simp
      | cons c p =>
        obtain ⟨q, rfl⟩ := (List.prefix_append_right_inj x).1 hn
        exact absurd (List.mem_append_right x List.mem_cons_self) (h c rfl)
  · intro hn
    exact hn.trans (List.prefix_append x y)

theorem prefix_strip_iff {n : Text} (h : ∀ c ∈ n, isBlank c = false) (t : Text) :
    n <+: strip t ↔ n <+: t.dropWhile isBlank := by
  have finish := congrArg List.reverse
    (List.takeWhile_append_dropWhile (p := isBlank) (l := (t.dropWhile isBlank).reverse))
  rw [List.reverse_append, List.reverse_reverse] at finish
  have whole : t.dropWhile isBlank = strip t ++ ((t.dropWhile isBlank).reverse.takeWhile isBlank).reverse := finish.symm
  rw [whole]
  refine (prefix_append_iff ?_).symm
  intro c hc hn
  have blank : isBlank c = true := List.mem_takeWhile_imp (List.mem_reverse.1 (List.mem_of_head? hc))
  exact absurd blank (by simp [h c hn])

theorem prefix_strip_append_iff {n t : Text} {c : Char} (h : ∀ c ∈ n, isBlank c = false) (ht : ¬ IsGap t)
    (hc : isBlank c = true) (r : Text) : n <+: strip (t ++ c :: r) ↔ n <+: strip t := by
  have some : t.dropWhile isBlank ≠ [] := mt List.dropWhile_eq_nil_iff.1 ht
  rw [prefix_strip_iff h, prefix_strip_iff h, List.dropWhile_append, if_neg (by simpa using some)]
  refine prefix_append_iff ?_
  intro d hd hn
  obtain rfl : c = d := by simpa using hd
  exact absurd hc (by simp [h c hn])

theorem infix_gap_append_iff {a : Text} (ha : IsGap a) {c : Char} (hc : isBlank c = false) (m t : Text) :
    c :: m <:+: a ++ t ↔ c :: m <:+: t := by
  induction a with
  | nil => rfl
  | cons d a ih =>
    have foreign : c ≠ d := by
      rintro rfl
      exact absurd (ha c List.mem_cons_self) (by simp [hc])
    rw [List.cons_append, List.infix_cons_iff, ih fun e he => ha e (List.mem_cons_of_mem d he)]
    simp [foreign]

theorem infix_append_gap_iff {b : Text} (hb : IsGap b) {c : Char} (hc : isBlank c = false) (m t : Text) :
    m ++ [c] <:+: t ++ b ↔ m ++ [c] <:+: t := by
  have reversed : IsGap b.reverse := fun d hd => hb d (List.mem_reverse.1 hd)
  have mirrored (s : Text) : m ++ [c] <:+: s ↔ c :: m.reverse <:+: s.reverse := by
    rw [← List.reverse_infix, List.reverse_concat]
  rw [mirrored, mirrored, List.reverse_append]
  exact infix_gap_append_iff reversed hc m.reverse t.reverse

end EntityScaffold.Text
