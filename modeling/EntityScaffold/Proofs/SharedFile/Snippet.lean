import EntityScaffold.Proofs.SharedFile.Section
import EntityScaffold.Proofs.Text.Blank

/- The lines of a snippet that have text: a text holds the snippet when it holds each of them, and indenting keeps them. -/

namespace EntityScaffold.Text

variable {l t : Text}

theorem infix_of_strip (t : Text) : strip t <:+: t := by
  obtain ⟨a, b, -, -, ht⟩ := exists_eq_gap_strip t
  exact ⟨a, b, by rw [List.append_assoc, ← ht]⟩

theorem isBlank_of_strip_eq_cons {c : Char} {r : Text} (h : strip t = c :: r) : isBlank c = false := by
  obtain ⟨a, b, ha, hb, ht⟩ := exists_eq_gap_strip t
  by_contra blank
  have gap : IsGap (a ++ [c]) := by
    intro d hd
    rcases List.mem_append.1 hd with hd | hd
    · exact ha d hd
    · rw [List.mem_singleton.1 hd]
      simpa using blank
  have shorter : strip t = strip r := by
    rw [ht, h, List.cons_append, List.append_cons, strip_gap_append gap, strip_append_gap hb]
  have := (infix_of_strip r).length_le
  rw [← shorter, h, List.length_cons] at this
  omega

theorem trimEnd_append (p : Char → Bool) (t : Text) : trimEnd p t ++ (t.reverse.takeWhile p).reverse = t := by
  rw [trimEnd, ← List.reverse_append, List.takeWhile_append_dropWhile, List.reverse_reverse]

theorem brokenLines_spec (h : l ∈ brokenLines t) : l <:+: t ∧ ∀ c ∈ l, isLineEnd c = false := by
  have all : ∃ q qs, brokenLines t = q :: qs ∧ q <+: t ∧ (∀ c ∈ q, isLineEnd c = false) ∧
      ∀ l ∈ qs, l <:+: t ∧ ∀ c ∈ l, isLineEnd c = false := by
    clear h
    induction t with
    | nil => exact ⟨[], [], rfl, List.nil_prefix, by simp, by simp⟩
    | cons c r ih =>
      obtain ⟨q, qs, hbroken, start, first, rest⟩ := ih
      have later : ∀ l ∈ qs, l <:+: c :: r ∧ ∀ d ∈ l, isLineEnd d = false := fun l hl =>
        (rest l hl).imp_left List.infix_cons
      cases hc : isLineEnd c with
      | true =>
        refine ⟨[], q :: qs, by simp [brokenLines, hc, hbroken], List.nil_prefix, by simp, ?_⟩
        exact List.forall_mem_cons.2 ⟨⟨List.infix_cons start.isInfix, first⟩, later⟩
      | false =>
        refine ⟨c :: q, qs, by simp [brokenLines, hc, hbroken], (List.prefix_cons_inj c).2 start, ?_, later⟩
        exact List.forall_mem_cons.2 ⟨hc, first⟩
  obtain ⟨q, qs, hbroken, start, first, rest⟩ := all
  rw [hbroken] at h
  rcases List.mem_cons.1 h with rfl | h
  · exact ⟨start.isInfix, first⟩
  · exact rest l h

end EntityScaffold.Text

namespace EntityScaffold.SharedFile

open Text (strip isBlank)

variable {l t snippet : Text}

/-- The lines of a snippet that have text, without the blanks at their ends. -/
def visibleLines (snippet : Text) : List Text :=
  ((Text.brokenLines snippet).map strip).filter fun line => !line.isEmpty

theorem present_iff : present t snippet = true ↔ visibleLines snippet ≠ [] ∧ ∀ l ∈ visibleLines snippet, l <:+: t := by
  simp only [present, Bool.and_eq_true, Bool.not_eq_true', List.isEmpty_eq_false_iff, List.all_eq_true, Text.has_iff]
  rfl

theorem visibleLines_ended {ls : List Text} (h : ∀ l ∈ ls, IsNeat l) : visibleLines (Text.ended ls) = ls := by
  have stripped : ls.map strip = ls := by
    rw [List.map_congr_left (g := fun l => l) fun l hl => (h l hl).strip_eq]
    exact List.map_id ls
  have kept : ls.filter (fun l => !l.isEmpty) = ls := by
    rw [List.filter_eq_self]
    intro l hl
    simpa using (h l hl).ne_nil
  rw [visibleLines, brokenLines_ended fun l hl => (h l hl).oneLine, List.map_append, stripped, List.filter_append, kept]
  exact List.append_nil ls

/-- A snippet of neat lines is there when each of its lines is. -/
theorem present_ended_iff {ls : List Text} (hne : ls ≠ []) (h : ∀ l ∈ ls, IsNeat l) :
    present t (Text.ended ls) = true ↔ ∀ l ∈ ls, l <:+: t := by
  rw [present_iff, visibleLines_ended h]
  exact and_iff_right hne

/-- A visible line starts with a character that is no blank, and is a part of the snippet without line ends. -/
structure IsVisible (snippet l : Text) : Prop where
  starts : ∃ c r, l = c :: r ∧ isBlank c = false
  inside : l <:+: snippet
  oneLine : '\n' ∉ l

theorem IsVisible.ne_nil (h : IsVisible snippet l) : l ≠ [] := by
  obtain ⟨c, r, rfl, -⟩ := h.starts
  exact List.cons_ne_nil c r

theorem isVisible_of_mem (h : l ∈ visibleLines snippet) : IsVisible snippet l := by
  obtain ⟨hl, nonempty⟩ := List.mem_filter.1 h
  obtain ⟨line, hline, rfl⟩ := List.mem_map.1 hl
  obtain ⟨inside, oneLine⟩ := Text.brokenLines_spec hline
  obtain ⟨c, r, hcr⟩ := List.exists_cons_of_ne_nil (by simpa using nonempty : strip line ≠ [])
  refine ⟨⟨c, r, hcr, Text.isBlank_of_strip_eq_cons hcr⟩, (Text.infix_of_strip line).trans inside, fun hm => ?_⟩
  exact absurd (oneLine '\n' ((Text.infix_of_strip line).subset hm)) (by decide)

theorem IsVisible.infix_indented (h : IsVisible snippet l) (indent : Text) : l <:+: indented indent snippet := by
  have trimmed : l <:+: Text.trimEnd (· = '\n') snippet := by
    have ends : ∀ c ∈ (snippet.reverse.takeWhile (· = '\n')).reverse, c = '\n' := fun c hc =>
      of_decide_eq_true (List.mem_takeWhile_imp (p := (· = '\n')) (List.mem_reverse.1 hc))
    have inside := h.inside
    rw [← Text.trimEnd_append (· = '\n') snippet] at inside
    generalize (snippet.reverse.takeWhile (· = '\n')).reverse = ending at ends inside
    cases ending with
    | nil => simpa using inside
    | cons c ending =>
      obtain rfl := ends c List.mem_cons_self
      refine ((Text.infix_append_cons_iff h.ne_nil h.oneLine _ _).1 inside).resolve_right fun out => ?_
      obtain ⟨d, r, rfl, -⟩ := h.starts
      have feed := ends d (List.mem_cons_of_mem _ (out.subset List.mem_cons_self))
      exact h.oneLine (feed ▸ List.mem_cons_self)
  obtain ⟨m, hm, hl⟩ := (Text.infix_iff_lines h.ne_nil h.oneLine).1 trimmed
  have nonblank : (strip m).isEmpty = false := by
    rw [List.isEmpty_eq_false_iff, ne_eq, Text.strip_eq_nil_iff]
    intro gap
    obtain ⟨c, r, rfl, hc⟩ := h.starts
    exact absurd (gap c (hl.subset List.mem_cons_self)) (by simp [hc])
  rw [indented, List.flatMap_def]
  refine hl.trans (List.IsInfix.trans ?_ (List.infix_of_mem_flatten (List.mem_map_of_mem hm)))
  rw [nonblank]
  exact ⟨indent, ['\n'], rfl⟩

theorem IsVisible.infix_dropWhile (h : IsVisible snippet l) (inside : l <:+: t) : l <:+: t.dropWhile isIndent := by
  obtain ⟨c, r, rfl, hc⟩ := h.starts
  rw [← List.takeWhile_append_dropWhile (p := isIndent) (l := t)] at inside
  exact (Text.infix_gap_append_iff (fun d hd => isBlank_of_isIndent (List.mem_takeWhile_imp hd)) hc r _).1 inside

/-- The lines of a snippet as they come to stand in a file: each line with text indented, each other line empty. -/
def indentedLines (indent snippet : Text) : List Text :=
  (Text.lines (Text.trimEnd (· = '\n') snippet)).map fun line => if (strip line).isEmpty then [] else indent ++ line

theorem indented_eq_ended (indent snippet : Text) : indented indent snippet = Text.ended (indentedLines indent snippet) := by
  rw [indented, Text.ended, indentedLines, List.flatMap_map]
  refine List.flatMap_congr fun line _ => ?_
  split <;> rfl

theorem infix_of_mem_indentedLines {indent : Text} (h : l ∈ indentedLines indent snippet) :
    l = [] ∨ ∃ m, l = indent ++ m ∧ m <:+: snippet ∧ '\n' ∉ m := by
  obtain ⟨m, hm, rfl⟩ := List.mem_map.1 h
  have inside : m <:+: snippet := by
    refine (Text.infix_of_mem_splitAt hm).trans ?_
    exact ⟨[], _, Text.trimEnd_append (· = '\n') snippet⟩
  split
  · exact Or.inl rfl
  · exact Or.inr ⟨m, rfl, inside, Text.not_mem_of_mem_splitAt hm⟩

theorem exists_indented_eq (indent snippet : Text) : ∃ b, indented indent snippet = b ++ ['\n'] := by
  have lines := Text.splitAt_ne_nil '\n' (Text.trimEnd (· = '\n') snippet)
  rw [indented, ← List.dropLast_concat_getLast lines, List.flatMap_append, List.flatMap_singleton]
  split
  · exact ⟨_, rfl⟩
  · exact ⟨_, (List.append_assoc _ _ _).symm⟩

end EntityScaffold.SharedFile
