import EntityScaffold.Proofs.SharedFile.Section
import Mathlib.Data.List.TakeWhile

/-
Seams: a block enters between two parts of a text. Where it brings no marker of a section and does not move one, the text has
the section afterwards only if it had it before, with all that was in it but what the seam cuts.
-/

namespace EntityScaffold.Text

variable {needle a b c r t u v : Text}

theorem Straddles.mono (h : Straddles needle a b) (ha : a <:+ u) (hb : b <+: v) : Straddles needle u v := by
  obtain ⟨s, p, hs, hp, he, hsa, hpb⟩ := h
  exact ⟨s, p, hs, hp, he, hsa.trans ha, hpb.trans hb⟩

theorem not_straddles_single (d : Char) (a b : Text) : ¬ Straddles [d] a b := by
  rintro ⟨s, p, hs, hp, he, -, -⟩
  have lengths := congrArg List.length he
  have := List.length_pos_iff.2 hs
  have := List.length_pos_iff.2 hp
  simp only [List.length_append, List.length_singleton] at lengths
  omega

theorem exists_cut? (h : needle <:+: t) : ∃ a r, cut? needle t = some (a, r) := by
  obtain ⟨⟨a, r⟩, hp⟩ := Option.isSome_iff_exists.1 (has_iff.2 h)
  exact ⟨a, r, hp⟩

theorem prefix_of_cut? (h : cut? needle (u ++ v) = some (a, r)) (hv : needle <+: v) : a <+: u := by
  induction u generalizing a with
  | nil =>
    cases v with
    | nil =>
      obtain ⟨rfl, -⟩ : a = [] ∧ r = [] := by simpa [cut?, List.prefix_nil.1 hv, eq_comm] using h
      exact List.nil_prefix
    | cons c v =>
      rw [List.nil_append, cut?, if_pos (List.isPrefixOf_iff_prefix.2 hv)] at h
      obtain ⟨rfl, -⟩ := Prod.mk.inj (Option.some.inj h)
      exact List.nil_prefix
  | cons c u ih =>
    rw [List.cons_append, cut?] at h
    split at h
    · obtain ⟨rfl, -⟩ := Prod.mk.inj (Option.some.inj h)
      exact List.nil_prefix
    · obtain ⟨⟨a', r'⟩, hcut, he⟩ := Option.map_eq_some_iff.1 h
      obtain ⟨rfl, rfl⟩ := Prod.mk.inj he
      exact List.cons_prefix_cons.2 ⟨rfl, ih hcut⟩

theorem not_infix_of_cut? (hne : needle ≠ []) (h : cut? needle t = some (a, r)) : ¬ needle <:+: a := by
  rintro ⟨u, v, rfl⟩
  have whole := append_of_cut? h
  rw [← whole, List.append_assoc, List.append_assoc] at h
  have lengths := (prefix_of_cut? h (List.prefix_append needle _)).length_le
  have := List.length_pos_iff.2 hne
  simp only [List.length_append] at lengths
  omega

theorem infix_of_cut? (h : cut? needle t = some (a, r)) : needle <:+: t := has_iff.1 (by rw [has, h]; rfl)

end EntityScaffold.Text

namespace EntityScaffold.SharedFile

open Text (Straddles cut?)

variable {needle a c l r t x y : Text} {name body : Text}

section WholeLines

/-- A text up to its last line feed. -/
abbrev wholeLines (t : Text) : Text := (lastLineSplit t).1

theorem wholeLines_append_of_mem (h : '\n' ∈ c) (a : Text) : wholeLines (a ++ c) = a ++ wholeLines c := by
  have some : c.reverse.dropWhile (· ≠ '\n') ≠ [] := by
    rw [ne_eq, List.dropWhile_eq_nil_iff]
    exact fun all => absurd (all '\n' (List.mem_reverse.2 h)) (by simp)
  simp only [wholeLines, lastLineSplit, List.reverse_append, List.dropWhile_append]
  rw [if_neg (by simpa using some), List.reverse_append, List.reverse_reverse]

theorem wholeLines_append_of_not_mem (h : '\n' ∉ c) (a : Text) : wholeLines (a ++ c) = wholeLines a := by
  have all : ∀ d ∈ c.reverse, decide (d ≠ '\n') = true := by
    intro d hd
    simpa using fun e => h (by simpa [e] using hd)
  simp only [wholeLines, lastLineSplit, List.reverse_append, List.dropWhile_append_of_pos all]

theorem wholeLines_starts (t : Text) : wholeLines t <+: t := ⟨_, append_lastLineSplit t⟩

theorem wholeLines_mono (h : a <+: t) : wholeLines a <+: wholeLines t := by
  obtain ⟨c, rfl⟩ := h
  by_cases hc : '\n' ∈ c
  · rw [wholeLines_append_of_mem hc]
    exact (wholeLines_starts a).trans (List.prefix_append a _)
  · rw [wholeLines_append_of_not_mem hc]

theorem wholeLines_append (a c : Text) : wholeLines c <:+: wholeLines (a ++ c) := by
  by_cases hc : '\n' ∈ c
  · rw [wholeLines_append_of_mem hc]
    exact (List.suffix_append a _).isInfix
  · have nothing : wholeLines c = [] := wholeLines_append_of_not_mem hc []
    rw [nothing]
    exact List.nil_infix

end WholeLines

/-- A place in a text, and the block that enters there. -/
structure Seam where
  before : Text
  block : Text
  after : Text

namespace Seam

variable {s : Seam}

def old (s : Seam) : Text := s.before ++ s.after

def new (s : Seam) : Text := s.before ++ (s.block ++ s.after)

/-- The needle comes to stand where the block is, in it or across one of its ends. -/
def Brings (s : Seam) (needle : Text) : Prop :=
  needle <:+: s.block ∨ Straddles needle s.before (s.block ++ s.after) ∨ Straddles needle (s.before ++ s.block) s.after

/-- What is not brought, and does not stand in an end of the text before the seam, is found first after the seam. -/
theorem cut?_of_not_brings (h : ¬ s.Brings needle) (hne : needle ≠ []) (hr : r <:+ s.before) (absent : ¬ needle <:+: r) :
    cut? needle (r ++ (s.block ++ s.after)) = (cut? needle s.after).map fun p => (r ++ s.block ++ p.1, p.2) := by
  unfold Brings at h
  push Not at h
  obtain ⟨inside, start, finish⟩ := h
  rw [← List.append_assoc]
  refine Text.cut?_append_right ?_ fun across => finish (across.mono ?_ (List.prefix_refl _))
  · rw [Text.infix_append_iff hne fun across => start (across.mono hr (List.prefix_append _ _)), not_or]
    exact ⟨absent, inside⟩
  · obtain ⟨x, hx⟩ := hr
    exact ⟨x, by rw [← hx, List.append_assoc]⟩

/-- What a text keeps across the seam of what was found in it before. -/
def Keeps (s : Seam) (old new : Option Text) : Prop :=
  ∀ t ∈ new, ∃ t' ∈ old, ∀ l, l ≠ [] → l <:+: t' → ¬ Straddles l s.before s.after → l <:+: t

theorem keeps_refl (s : Seam) (found : Option Text) : s.Keeps found found :=
  fun t ht => ⟨t, ht, fun _ _ hl _ => hl⟩

end Seam

section Bodies

/-- The body of the section of the name, if the text has one. -/
def body? (content name : Text) : Option Text := (section? content name).map (·.body)

/-- The lines before the one with the end marker. -/
def bodyIn (name rest : Text) : Option Text := (cut? (endMarker name) rest).map fun p => wholeLines p.1

/-- The body of a section in the text from its begin marker on. -/
def bodyAfter (name opening : Text) : Option Text := (cut? ['\n'] opening).bind fun p => bodyIn name (p.2.drop 1)

theorem body?_eq (content name : Text) :
    body? content name = (cut? (beginMarker name) content).bind fun p => bodyAfter name p.2 := by
  unfold body? section? bodyAfter bodyIn
  cases cut? (beginMarker name) content with
  | none => rfl
  | some p =>
    cases hline : cut? ['\n'] p.2 with
    | none => simp [hline]
    | some q => cases hend : cut? (endMarker name) q.2.tail <;> simp [hline, hend]

theorem body?_append_of_cut? (h : cut? (beginMarker name) x = some (a, r)) (t : Text) :
    body? (x ++ t) name = bodyAfter name (r ++ t) := by
  rw [body?_eq, Text.cut?_append_left h]
  rfl

theorem bodyAfter_append (h : '\n' ∉ a) (r t : Text) : bodyAfter name (a ++ '\n' :: r ++ t) = bodyIn name (r ++ t) := by
  rw [bodyAfter, Text.cut?_append_left (Text.cut?_single h r)]
  rfl

theorem bodyAfter_append_of_not_mem (h : '\n' ∉ a) (t : Text) : bodyAfter name (a ++ t) = bodyAfter name t := by
  have absent : ¬ ['\n'] <:+: a := fun hi => h (hi.subset List.mem_cons_self)
  rw [bodyAfter, Text.cut?_append_right absent (Text.not_straddles_single '\n' a t), bodyAfter]
  cases cut? ['\n'] t <;> rfl

end Bodies

namespace Seam

variable {s : Seam}

/-- The seam makes another section of the name found. -/
inductive Misleads (s : Seam) (name : Text) : Prop
  /-- A begin marker arrives before all others. -/
  | begins (first : ¬ beginMarker name <:+: s.before) (brings : s.Brings (beginMarker name))
  /-- The first begin marker is cut, and there is another section after the seam. -/
  | cuts (first : ¬ beginMarker name <:+: s.before) (across : Straddles (beginMarker name) s.before s.after)
      (other : body? s.after name ≠ none)
  /-- An end marker arrives after a begin marker. -/
  | ends (there : beginMarker name <:+: s.before) (brings : s.Brings (endMarker name))
  /-- The line of the begin marker is parted before an end marker on it. -/
  | parts {before opening : Text} (there : cut? (beginMarker name) s.before = some (before, opening))
      (line : '\n' ∉ opening) (closes : endMarker name <:+: s.after.takeWhile (· ≠ '\n'))

theorem keeps_bodyIn (brings : ¬ s.Brings (endMarker name)) (hr : r <:+ s.before) :
    s.Keeps (bodyIn name (r ++ s.after)) (bodyIn name (r ++ (s.block ++ s.after))) := by
  by_cases closed : endMarker name <:+: r
  · obtain ⟨a, t, hcut⟩ := Text.exists_cut? closed
    simp only [bodyIn, Text.cut?_append_left hcut]
    exact keeps_refl s _
  · intro body hbody
    obtain ⟨p, hp, rfl⟩ := Option.map_eq_some_iff.1 hbody
    rw [cut?_of_not_brings brings (endMarker_ne_nil name) hr closed] at hp
    obtain ⟨⟨z, w⟩, hz, rfl⟩ := Option.map_eq_some_iff.1 hp
    have after := Text.append_of_cut? hz
    have starts : endMarker name <+: w := List.isPrefixOf_iff_prefix.1 (Text.isPrefixOf_of_cut? hz)
    obtain ⟨z', w', hz'⟩ := Text.exists_cut? ((Text.infix_of_cut? hz).trans (List.suffix_append r s.after).isInfix)
    have sooner : z' <+: r ++ z := by
      rw [← after, ← List.append_assoc] at hz'
      exact Text.prefix_of_cut? hz' starts
    refine ⟨wholeLines z', by simp [bodyIn, hz'], fun l hne hl across => ?_⟩
    have inside : l <:+: wholeLines (r ++ z) := hl.trans (wholeLines_mono sooner).isInfix
    change l <:+: wholeLines (r ++ s.block ++ z)
    by_cases lineEnd : '\n' ∈ z
    · rw [wholeLines_append_of_mem lineEnd] at inside ⊢
      have apart : ¬ Straddles l r (wholeLines z) := fun h =>
        across (h.mono hr ((wholeLines_starts z).trans ⟨w, after⟩))
      rcases (Text.infix_append_iff hne apart).1 inside with h | h
      · exact h.trans ⟨[], s.block ++ wholeLines z, by simp⟩
      · exact h.trans (List.suffix_append _ _).isInfix
    · rw [wholeLines_append_of_not_mem lineEnd] at inside ⊢
      exact inside.trans (wholeLines_mono (List.prefix_append r s.block)).isInfix

/-- Behind the first line of a text without an end marker, an end marker is found first where it is found first in the text. -/
theorem cut?_endMarker_append_cons (hname : '\n' ∉ name) (absent : ¬ endMarker name <:+: x) (y : Text) :
    cut? (endMarker name) (x ++ '\n' :: y) = (cut? (endMarker name) y).map fun p => (x ++ '\n' :: p.1, p.2) := by
  have line := not_mem_endMarker hname
  have absent' : ¬ endMarker name <:+: x ++ ['\n'] := by
    rw [Text.infix_append_cons_iff (endMarker_ne_nil name) line, not_or]
    exact ⟨absent, fun h => endMarker_ne_nil name (List.infix_nil.1 h)⟩
  have found := Text.cut?_append_right absent' (Text.not_straddles_concat line x y)
  simpa only [List.append_assoc, List.singleton_append] using found

theorem keeps_bodyAfter_block (hname : '\n' ∉ name) (brings : ¬ s.Brings (endMarker name))
    (closes : ¬ endMarker name <:+: s.after.takeWhile (· ≠ '\n')) (line : '\n' ∈ s.block) :
    s.Keeps (bodyAfter name s.after) (bodyAfter name (s.block ++ s.after)) := by
  obtain ⟨b, b', hblock, hb⟩ := List.eq_append_cons_of_mem line
  unfold Brings at brings
  push Not at brings
  obtain ⟨inside, -, finish⟩ := brings
  have absent : ¬ endMarker name <:+: b' := fun h =>
    inside (h.trans ⟨b ++ ['\n'], [], by simp [hblock]⟩)
  have apart : ¬ Straddles (endMarker name) b' s.after := fun h =>
    finish (h.mono ⟨s.before ++ (b ++ ['\n']), by simp [hblock]⟩ (List.prefix_refl _))
  intro body hbody
  rw [hblock, bodyAfter_append hb] at hbody
  obtain ⟨p, hp, rfl⟩ := Option.map_eq_some_iff.1 hbody
  rw [Text.cut?_append_right absent apart] at hp
  obtain ⟨⟨z, w⟩, hz, rfl⟩ := Option.map_eq_some_iff.1 hp
  by_cases lineEnd : '\n' ∈ s.after
  · obtain ⟨y, y', hafter, hy⟩ := List.eq_append_cons_of_mem lineEnd
    have first : s.after.takeWhile (· ≠ '\n') = y := by
      have others : ∀ c ∈ y, decide (c ≠ '\n') = true := fun c hc => decide_eq_true fun e => hy (e ▸ hc)
      rw [hafter, List.takeWhile_append_of_pos others]
      simp
    rw [first] at closes
    rw [hafter, cut?_endMarker_append_cons hname closes] at hz
    obtain ⟨⟨v, w'⟩, hv, he⟩ := Option.map_eq_some_iff.1 hz
    obtain ⟨rfl, rfl⟩ := Prod.mk.inj he
    have before : bodyAfter name s.after = some (wholeLines v) := by
      have opened : bodyAfter name (y ++ '\n' :: y' ++ []) = bodyIn name (y' ++ []) := bodyAfter_append hy y' []
      rw [List.append_nil, List.append_nil] at opened
      rw [hafter, opened, bodyIn, hv]
      rfl
    refine ⟨wholeLines v, before, fun l _ hl _ => hl.trans ?_⟩
    have joined := wholeLines_append (b' ++ (y ++ ['\n'])) v
    simpa using joined
  · -- Without a line feed the end marker stands in the first line, where it must not.
    have only : s.after.takeWhile (· ≠ '\n') = s.after :=
      List.takeWhile_eq_self_iff.2 fun c hc => decide_eq_true fun e => lineEnd (e ▸ hc)
    rw [only] at closes
    exact absurd (Text.infix_of_cut? hz) closes

theorem keeps_bodyAfter (misleads : ¬ s.Misleads name) (h : cut? (beginMarker name) s.before = some (a, r)) :
    s.Keeps (bodyAfter name (r ++ s.after)) (bodyAfter name (r ++ (s.block ++ s.after))) := by
  have whole := Text.append_of_cut? h
  have brings : ¬ s.Brings (endMarker name) := fun hb => misleads (.ends (Text.infix_of_cut? h) hb)
  by_cases line : '\n' ∈ r
  · obtain ⟨m, u, rfl, hm⟩ := List.eq_append_cons_of_mem line
    rw [bodyAfter_append hm, bodyAfter_append hm]
    exact keeps_bodyIn brings ⟨a ++ (m ++ ['\n']), by simp [← whole]⟩
  · rw [bodyAfter_append_of_not_mem line, bodyAfter_append_of_not_mem line]
    by_cases lines : '\n' ∈ s.block
    · have starts : beginMarker name <+: r := List.isPrefixOf_iff_prefix.1 (Text.isPrefixOf_of_cut? h)
      have hname : '\n' ∉ name := fun hm => line (starts.subset (List.mem_append_right _ hm))
      exact keeps_bodyAfter_block hname brings (fun closes => misleads (.parts h line closes)) lines
    · rw [bodyAfter_append_of_not_mem lines]
      exact keeps_refl s _

theorem body?_new_of_absent (brings : ¬ s.Brings (beginMarker name)) (absent : ¬ beginMarker name <:+: s.before) :
    body? s.new name = body? s.after name := by
  rw [new, body?_eq, cut?_of_not_brings brings (beginMarker_ne_nil name) (List.suffix_refl _) absent, body?_eq]
  cases cut? (beginMarker name) s.after <;> rfl

/-- Unless the seam misleads, a section is found only if it was before, and keeps all that the seam does not cut. -/
theorem keeps_body? (misleads : ¬ s.Misleads name) : s.Keeps (body? s.old name) (body? s.new name) := by
  by_cases there : beginMarker name <:+: s.before
  · obtain ⟨a, r, hcut⟩ := Text.exists_cut? there
    rw [old, new, body?_append_of_cut? hcut, body?_append_of_cut? hcut]
    exact keeps_bodyAfter misleads hcut
  · have brings : ¬ s.Brings (beginMarker name) := fun h => misleads (.begins there h)
    rw [body?_new_of_absent brings there]
    by_cases across : Straddles (beginMarker name) s.before s.after
    · have none : body? s.after name = none := by
        by_contra other
        exact misleads (.cuts there across other)
      rw [none]
      exact fun t ht => absurd ht (by simp)
    · have earlier : body? s.old name = body? s.after name := by
        rw [old, body?_eq, Text.cut?_append_right there across, body?_eq]
        cases cut? (beginMarker name) s.after <;> rfl
      rw [earlier]
      exact keeps_refl s _

/-- The seam at the end of a section's body. -/
def atEnd (found : Section) (block : Text) : Seam := ⟨found.before ++ found.body, block, found.after⟩

theorem section?_parts {found : Section} {content : Text} (h : section? content name = some found) :
    ∃ a marker, found.before = a ++ (marker ++ ['\n']) ∧ '\n' ∉ marker ∧ ¬ endMarker name <:+: found.body ∧
      cut? (beginMarker name) (found.before ++ found.body ++ found.after) =
        some (a, marker ++ '\n' :: found.body ++ found.after) := by
  simp only [section?, Option.bind_eq_bind, Option.bind_eq_some_iff, Prod.exists] at h
  obtain ⟨a, opening, hopen, marker, rest, hmarker, inner, closing, hclose, he⟩ := h
  obtain ⟨r, rfl⟩ := List.isPrefixOf_iff_prefix.1 (Text.isPrefixOf_of_cut? hmarker)
  simp only [List.singleton_append, List.drop_succ_cons, List.drop_zero] at hclose
  obtain rfl := Option.some.inj he
  have opening_eq : opening = marker ++ '\n' :: (lastLineSplit inner).1 ++ ((lastLineSplit inner).2 ++ closing) := by
    rw [← Text.append_of_cut? hmarker, ← Text.append_of_cut? hclose]
    conv_lhs => rw [← append_lastLineSplit inner]
    simp
  refine ⟨a, marker, by simp, ?_, fun hi => ?_, ?_⟩
  · intro hm
    obtain ⟨u, v, rfl⟩ := List.append_of_mem hm
    exact Text.not_infix_of_cut? (List.cons_ne_nil _ _) hmarker ⟨u, v, by simp⟩
  · exact Text.not_infix_of_cut? (endMarker_ne_nil name) hclose (hi.trans (wholeLines_starts inner).isInfix)
  · rw [← opening_eq, ← hopen, ← Text.append_of_cut? hopen, opening_eq]
    simp

/-- Unless the seam misleads, lines that enter at the end of a section are in it then, if it is still found. -/
theorem block_infix_body {found : Section} {content b : Text} (h : section? content name = some found)
    (misleads : ¬ (atEnd found (b ++ ['\n'])).Misleads name) :
    ∀ t ∈ body? (atEnd found (b ++ ['\n'])).new name, b ++ ['\n'] <:+: t := by
  obtain ⟨a, marker, hbefore, hm, absent, hcut⟩ := section?_parts h
  intro t ht
  by_cases there : beginMarker name <:+: found.before ++ found.body
  · obtain ⟨a', q, hq⟩ := Text.exists_cut? there
    have again := Text.cut?_append_left hq found.after
    rw [hcut] at again
    obtain ⟨rfl, same⟩ := Prod.mk.inj (Option.some.inj again)
    obtain rfl : marker ++ '\n' :: found.body = q := List.append_cancel_right same
    have brings : ¬ (atEnd found (b ++ ['\n'])).Brings (endMarker name) := fun hb => misleads (.ends there hb)
    have ending : found.body <:+ (atEnd found (b ++ ['\n'])).before := List.suffix_append _ _
    rw [new, atEnd, body?_append_of_cut? hq, bodyAfter_append hm] at ht
    obtain ⟨p, hp, rfl⟩ := Option.map_eq_some_iff.1 ht
    have found_ := cut?_of_not_brings brings (endMarker_ne_nil name) ending absent
    rw [atEnd] at found_
    rw [found_] at hp
    obtain ⟨⟨z, w⟩, -, rfl⟩ := Option.map_eq_some_iff.1 hp
    have lines : wholeLines (found.body ++ b ++ ['\n']) = found.body ++ b ++ ['\n'] :=
      wholeLines_append_of_mem List.mem_cons_self _
    have kept := wholeLines_mono (List.prefix_append (found.body ++ b ++ ['\n']) z)
    rw [lines, List.append_assoc] at kept
    exact (List.suffix_append found.body _).isInfix.trans kept.isInfix
  · -- The first begin marker starts before the seam, so the seam cuts it.
    have across : Straddles (beginMarker name) (found.before ++ found.body) found.after := by
      by_contra apart
      rw [Text.cut?_append_right there apart] at hcut
      obtain ⟨⟨y, w⟩, -, he⟩ := Option.map_eq_some_iff.1 hcut
      have lengths := congrArg List.length (Prod.mk.inj he).1
      simp only [hbefore, List.length_append, List.length_singleton] at lengths
      omega
    have brings : ¬ (atEnd found (b ++ ['\n'])).Brings (beginMarker name) := fun hb => misleads (.begins there hb)
    have other : body? found.after name = none := by
      by_contra other
      exact misleads (.cuts there across other)
    rw [body?_new_of_absent brings there] at ht
    exact absurd ht (by simp [atEnd, other])

end Seam

end EntityScaffold.SharedFile
