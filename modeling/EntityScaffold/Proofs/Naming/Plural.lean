import EntityScaffold.Proofs.Naming

/-
Plurals and the words that share one. The plural of a word ends in `s`, and before that stands the word itself, or a text that
may be a word of its own: one with an `e` after a sibilant, or with `ie` in the place of a `y`.
-/

namespace EntityScaffold.Naming

variable {a b p t w : Text} {c : Char}

def Hisses (w : Text) : Prop := ∃ e ∈ sibilants, e <:+ w

/-- A text whose last character is none of the vowels. -/
def EndsHard (p : Text) : Prop := ∃ d ∈ p.getLast?, d ∉ vowels

/-- A word and its plural, by the rule that the word follows. -/
inductive PluralOf : Text → Text → Prop
  | empty : PluralOf [] []
  | ies {p : Text} (hard : EndsHard p) : PluralOf (p ++ ['y']) (p ++ ['i', 'e', 's'])
  | es {w : Text} (hisses : Hisses w) : PluralOf w (w ++ ['e', 's'])
  | s {w : Text} (ne : w ≠ []) (quiet : ¬ Hisses w) (other : ∀ p, EndsHard p → w ≠ p ++ ['y']) : PluralOf w (w ++ ['s'])

/-- Two words that are told apart by their endings, and share a plural. -/
inductive SharesPlural : Text → Text → Prop
  | silent {w : Text} (hisses : Hisses w) : SharesPlural w (w ++ ['e'])
  | soft {p : Text} (hard : EndsHard p) : SharesPlural (p ++ ['y']) (p ++ ['i', 'e'])

theorem any_suffix_iff_hisses : (sibilants.any fun e => e.isSuffixOf w) = true ↔ Hisses w := by
  simp [Hisses, List.any_eq_true]

theorem not_hisses_concat (h : c ∉ ['s', 'x', 'z', 'h']) : ¬ Hisses (w ++ [c]) := by
  have lasts : ∀ e ∈ sibilants, ∃ d ∈ ['s', 'x', 'z', 'h'], e.getLast? = some d := by simp [sibilants]
  rintro ⟨e, he, u, hu⟩
  obtain ⟨d, hd, last⟩ := lasts e he
  have same := congrArg List.getLast? hu
  rw [List.getLast?_append, last, List.getLast?_concat] at same
  obtain rfl : d = c := by simpa using same
  exact h hd

theorem pluralOf_plural (w : Text) : PluralOf w (plural w) := by
  unfold plural
  split
  · next h =>
    obtain rfl : w = [] := by simpa using h
    exact .empty
  · next d r h =>
    obtain rfl : w = (d :: r).reverse ++ ['y'] := by simpa using congrArg List.reverse h
    have last : (d :: r).reverse.getLast? = some d := by simp
    split
    · next vowel =>
      refine .s (by simp) (not_hisses_concat (by decide)) ?_
      rintro p ⟨d', last', hard⟩ same
      rw [← List.append_cancel_right same, last] at last'
      obtain rfl := Option.some.inj last'
      exact hard (by simpa using vowel)
    · next hard => exact .ies ⟨d, last, by simpa using hard⟩
  · next nonempty noY =>
    split
    · next hisses => exact .es (any_suffix_iff_hisses.1 hisses)
    · next quiet =>
      refine .s (fun empty => nonempty (by simp [empty])) (mt any_suffix_iff_hisses.2 quiet) ?_
      rintro p ⟨d, last, -⟩ same
      obtain ⟨q, rfl⟩ := List.getLast?_eq_some_iff.1 last
      exact noY d q.reverse (by simp [same])

section Rules

theorem PluralOf.of_hisses (h : PluralOf w t) (hisses : Hisses w) : t = w ++ ['e', 's'] := by
  cases h with
  | empty => exact absurd hisses (by unfold Hisses; decide)
  | ies => exact absurd hisses (not_hisses_concat (by decide))
  | es => rfl
  | s _ quiet => exact absurd hisses quiet

theorem PluralOf.of_hard (h : PluralOf w t) (hard : EndsHard p) (hw : w = p ++ ['y']) : t = p ++ ['i', 'e', 's'] := by
  cases h with
  | empty => simp at hw
  | ies => rw [List.append_cancel_right hw]
  | es hisses => exact absurd (hw ▸ hisses) (not_hisses_concat (by decide))
  | s _ _ other => exact absurd hw (other p hard)

theorem PluralOf.of_e (h : PluralOf w t) (hw : w = p ++ ['e']) : t = p ++ ['e', 's'] := by
  cases h with
  | empty => simp at hw
  | ies => simp at hw
  | es hisses => exact absurd (hw ▸ hisses) (not_hisses_concat (by decide))
  | s => simp [hw]

/-- A word that has the plural of a word with a hard `y` is that word, or has two letters in the place of the `y`. -/
theorem PluralOf.eq_or_soft (hard : EndsHard p) (h : PluralOf b t) (ht : t = p ++ ['i', 'e', 's']) :
    p ++ ['y'] = b ∨ SharesPlural (p ++ ['y']) b := by
  cases h with
  | empty => simp at ht
  | ies => exact Or.inl (by rw [List.append_cancel_right ht])
  | es hisses =>
    have stem : b ++ ['e', 's'] = p ++ ['i'] ++ ['e', 's'] := by simpa using ht
    exact absurd (List.append_cancel_right stem ▸ hisses) (not_hisses_concat (by decide))
  | s =>
    have stem : b ++ ['s'] = p ++ ['i', 'e'] ++ ['s'] := by simpa using ht
    exact Or.inr (List.append_cancel_right stem ▸ .soft hard)

theorem PluralOf.eq_or_silent (hisses : Hisses w) (h : PluralOf b t) (ht : t = w ++ ['e', 's']) :
    w = b ∨ SharesPlural w b := by
  cases h with
  | empty => simp at ht
  | @ies p =>
    have stem : p ++ ['i'] ++ ['e', 's'] = w ++ ['e', 's'] := by simpa using ht
    exact absurd (List.append_cancel_right stem ▸ hisses) (not_hisses_concat (by decide))
  | es => exact Or.inl (List.append_cancel_right ht).symm
  | s =>
    have stem : b ++ ['s'] = w ++ ['e'] ++ ['s'] := by simpa using ht
    exact Or.inr (List.append_cancel_right stem ▸ .silent hisses)

/-- Words with one plural are the same, or differ by their endings alone. The longer word of two follows the plain rule, so that
the rule of the other one decides. -/
theorem PluralOf.eq_or_shares (ha : PluralOf a t) (hb : PluralOf b t) : a = b ∨ SharesPlural a b ∨ SharesPlural b a := by
  have first (h : a = b ∨ SharesPlural a b) : a = b ∨ SharesPlural a b ∨ SharesPlural b a := h.imp_right Or.inl
  have second (h : b = a ∨ SharesPlural b a) : a = b ∨ SharesPlural a b ∨ SharesPlural b a := h.imp Eq.symm Or.inr
  generalize ht : t = u at hb
  cases ha with
  | ies hard => exact first (hb.eq_or_soft hard ht.symm)
  | es hisses => exact first (hb.eq_or_silent hisses ht.symm)
  | empty =>
    cases hb with
    | empty => exact Or.inl rfl
    | ies | es | s => simp at ht
  | s ne quiet other =>
    have plain := PluralOf.s ne quiet other
    cases hb with
    | empty => simp at ht
    | ies hard => exact second (plain.eq_or_soft hard ht)
    | es hisses => exact second (plain.eq_or_silent hisses ht)
    | s => exact Or.inl (List.append_cancel_right ht)

end Rules

theorem SharesPlural.plural_eq (h : SharesPlural a b) : plural a = plural b := by
  cases h with
  | silent hisses => rw [(pluralOf_plural _).of_hisses hisses, (pluralOf_plural _).of_e rfl]
  | @soft p hard =>
    have whole : p ++ ['i', 'e'] = p ++ ['i'] ++ ['e'] := by simp
    rw [(pluralOf_plural _).of_hard hard rfl, (pluralOf_plural _).of_e whole, List.append_assoc]
    rfl

/-- Two words share a plural just when they are the same, one of them is the other with an `e` after its sibilant ending, or one
has `ie` where the other has a `y` after a character that is no vowel. -/
theorem plural_eq_iff (a b : Text) : plural a = plural b ↔ a = b ∨ SharesPlural a b ∨ SharesPlural b a := by
  constructor
  · intro same
    exact (pluralOf_plural a).eq_or_shares (same ▸ pluralOf_plural b)
  · rintro (rfl | shares | shares)
    · rfl
    · exact shares.plural_eq
    · exact shares.plural_eq.symm

example : plural "axis".toList = plural "axise".toList ∧ plural "pixy".toList = plural "pixie".toList := by decide

end EntityScaffold.Naming
