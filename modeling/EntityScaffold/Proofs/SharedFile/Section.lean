import EntityScaffold.SharedFile.Anchor
import EntityScaffold.Proofs.Text.Lines

/-
Snippets, sections and anchors by lines: what is inserted into a shared file, and where, in terms of the file's lines.
-/

namespace EntityScaffold.SharedFile

open Text (lines ended led between firstWith? isBlank)

/-- A line of a snippet: one line, with no blanks at its ends. -/
structure IsNeat (l : Text) : Prop where
  oneLine : ∀ c ∈ l, Text.isLineEnd c = false
  starts : ∃ c r, l = c :: r ∧ isBlank c = false
  ends : ∃ r c, l = r ++ [c] ∧ isBlank c = false

theorem IsNeat.not_mem {l : Text} (h : IsNeat l) : '\n' ∉ l := fun hm =>
  absurd (h.oneLine '\n' hm) (by decide)

theorem IsNeat.ne_nil {l : Text} (h : IsNeat l) : l ≠ [] := by
  obtain ⟨c, r, rfl, -⟩ := h.starts
  exact List.cons_ne_nil c r

theorem isBlank_of_isIndent {c : Char} (h : isIndent c = true) : isBlank c = true := by
  simp only [isIndent, Bool.or_eq_true, decide_eq_true_eq] at h
  rcases h with rfl | rfl <;> decide

theorem IsNeat.strip_eq {l : Text} (h : IsNeat l) : Text.strip l = l := by
  have hstart : l.dropWhile isBlank = l := by
    obtain ⟨c, r, rfl, hc⟩ := h.starts
    simp [hc]
  obtain ⟨r, c, rfl, hc⟩ := h.ends
  rw [Text.strip, Text.trim, hstart, Text.trimEnd]
  simp [hc]

theorem IsNeat.strip_ne_nil {l : Text} (h : IsNeat l) : (Text.strip l).isEmpty = false := by
  rw [h.strip_eq, List.isEmpty_eq_false_iff]
  exact h.ne_nil

theorem brokenLines_ended {ls : List Text} (h : ∀ l ∈ ls, ∀ c ∈ l, Text.isLineEnd c = false) :
    Text.brokenLines (ended ls) = ls ++ [[]] := by
  have line (l r : Text) (hl : ∀ c ∈ l, Text.isLineEnd c = false) :
      Text.brokenLines (l ++ '\n' :: r) = l :: Text.brokenLines r := by
    induction l with
    | nil => rfl
    | cons c l ih => simp [Text.brokenLines, hl c, ih fun d hd => hl d (List.mem_cons_of_mem c hd)]
  induction ls with
  | nil => rfl
  | cons l ls ih =>
    rw [Text.ended_cons, line l _ (h l List.mem_cons_self), ih fun m hm => h m (List.mem_cons_of_mem l hm)]
    rfl

theorem trimEnd_ended {ls : List Text} {l : Text} (h : IsNeat l) :
    Text.trimEnd (· = '\n') (ended (ls ++ [l])) = between ls l [] := by
  obtain ⟨r, c, rfl, hc⟩ := h.ends
  have hline : c ≠ '\n' := fun e => h.not_mem (by simp [e])
  simp [Text.trimEnd, between, hline]

theorem indented_ended {ls : List Text} (hne : ls ≠ []) (h : ∀ l ∈ ls, IsNeat l) (indent : Text) :
    indented indent (ended ls) = ended (ls.map (indent ++ ·)) := by
  obtain ⟨us, l, rfl⟩ : ∃ us l, ls = us ++ [l] :=
    ⟨ls.dropLast, ls.getLast hne, (List.dropLast_concat_getLast hne).symm⟩
  have hl := h l (by simp)
  have split : Text.splitAt '\n' (between us l []) = us ++ [l] :=
    Text.lines_between (fun u hu => (h u (by simp [hu])).not_mem) hl.not_mem (by simp)
  rw [indented, trimEnd_ended hl, split, ended, List.flatMap_map]
  refine List.flatMap_congr fun m hm => ?_
  rw [(h m hm).strip_ne_nil]
  simp

theorem lastLineSplit_ended_append (us : List Text) {t : Text} (h : '\n' ∉ t) :
    lastLineSplit (ended us ++ t) = (ended us, t) := by
  have all : ∀ c ∈ t.reverse, (decide (c ≠ '\n')) = true := by
    intro c hc
    simpa using fun e => h (by simpa [e] using hc)
  have stop : ended us = [] ∨ ∃ r, (ended us).reverse = '\n' :: r := by
    rcases List.eq_nil_or_concat us with rfl | ⟨vs, v, rfl⟩
    · exact Or.inl rfl
    · exact Or.inr ⟨v.reverse ++ (ended vs).reverse, by simp⟩
  rw [lastLineSplit, List.reverse_append, List.dropWhile_append_of_pos all, List.takeWhile_append_of_pos all]
  rcases stop with hnil | ⟨r, hr⟩
  · simp [hnil]
  · have whole : (ended us).reverse.dropWhile (· ≠ '\n') = (ended us).reverse := by simp [hr]
    have nothing : (ended us).reverse.takeWhile (· ≠ '\n') = [] := by simp [hr]
    rw [whole, nothing]
    simp

/-- A section by lines: those up to its begin marker, its own, the one with its end marker, and those after. -/
structure Tagged where
  before : List Text
  body : List Text
  closing : Text
  after : List Text

/-- The section as parts of a text. -/
def Tagged.toSection (s : Tagged) : Section where
  before := ended s.before
  body := ended s.body
  after := between [] s.closing s.after

theorem Tagged.lines_extended (s : Tagged) {new : List Text}
    (line : ∀ l ∈ s.before ++ (s.body ++ s.closing :: s.after), '\n' ∉ l) (oneLine : ∀ l ∈ new, '\n' ∉ l) :
    lines (s.toSection.before ++ s.toSection.body ++ ended new ++ s.toSection.after) =
      s.before ++ (s.body ++ (new ++ s.closing :: s.after)) := by
  simp only [List.mem_append, List.mem_cons] at line
  have joined : s.toSection.before ++ s.toSection.body ++ ended new ++ s.toSection.after =
      between (s.before ++ (s.body ++ new)) s.closing s.after := by
    simp [Tagged.toSection, between]
  rw [joined, Text.lines_between]
  · simp
  · intro l hl
    simp only [List.mem_append] at hl
    rcases hl with hl | hl | hl
    · exact line l (Or.inl hl)
    · exact line l (Or.inr (Or.inl hl))
    · exact oneLine l hl
  · exact line s.closing (Or.inr (Or.inr (Or.inl rfl)))
  · exact fun l hl => line l (Or.inr (Or.inr (Or.inr hl)))

/-- Finds a section among lines: the first line with its begin marker, and the first one after that with its end marker. -/
def tagged? (name : Text) (ls : List Text) : Option Tagged :=
  (firstWith? (beginMarker name) ls).bind fun (us, opening, rest) =>
    (firstWith? (endMarker name) rest).map fun (body, closing, after) => ⟨us ++ [opening], body, closing, after⟩

theorem beginMarker_ne_nil (name : Text) : beginMarker name ≠ [] :=
  List.append_ne_nil_of_left_ne_nil (by decide) name

theorem endMarker_ne_nil (name : Text) : endMarker name ≠ [] :=
  List.append_ne_nil_of_left_ne_nil (by decide) name

theorem not_mem_beginMarker {name : Text} (h : '\n' ∉ name) : '\n' ∉ beginMarker name := by
  intro hm
  rcases List.mem_append.1 hm with hmark | hname
  · exact absurd hmark (by decide)
  · exact h hname

theorem not_mem_endMarker {name : Text} (h : '\n' ∉ name) : '\n' ∉ endMarker name := by
  intro hm
  rcases List.mem_append.1 hm with hmark | hname
  · exact absurd hmark (by decide)
  · exact h hname

/-- A section is found in a text where it is found among the lines. -/
theorem section?_eq_tagged? {name : Text} (hname : '\n' ∉ name) (t : Text) :
    SharedFile.section? t name = (tagged? name (lines t)).map Tagged.toSection := by
  have hline : ∀ l ∈ lines t, '\n' ∉ l := fun l hl => Text.not_mem_of_mem_splitAt hl
  rw [section?, tagged?, Text.cut?_eq_firstWith? (beginMarker_ne_nil name) (not_mem_beginMarker hname)]
  cases hopen : firstWith? (beginMarker name) (lines t) with
  | none => rfl
  | some p =>
    obtain ⟨us, l, rest⟩ := p
    obtain ⟨hlines, -, hl⟩ := Text.firstWith?_eq_some_iff.1 hopen
    cases hcut : Text.cut? (beginMarker name) l with
    | none => exact absurd hl (Text.cut?_eq_none_iff.1 hcut)
    | some q =>
      obtain ⟨x, y⟩ := q
      have hxy := Text.append_of_cut? hcut
      have hy : '\n' ∉ y := fun hm => hline l (by simp [hlines]) (by simp [← hxy, hm])
      cases rest with
      | nil =>
        have none' : Text.cut? ['\n'] y = none := by
          rw [Text.cut?_eq_none_iff]
          exact fun hi => hy (hi.subset (by simp))
        simp [hcut, none', firstWith?]
      | cons m rest =>
        have hm : ∀ v ∈ m :: rest, '\n' ∉ v := fun v hv => hline v (by
          rw [hlines]
          exact List.mem_append_right us (List.mem_cons_of_mem l hv))
        have inner : lines (m ++ led rest) = m :: rest := by
          rw [Text.lines_append_led fun v hv => hm v (List.mem_cons_of_mem m hv), lines,
            Text.splitAt_of_not_mem (hm m List.mem_cons_self)]
          rfl
        have found : Text.cut? (endMarker name) (m ++ led rest) = _ :=
          Text.cut?_eq_firstWith? (endMarker_ne_nil name) (not_mem_endMarker hname) _
        simp only [hcut, Option.bind_some, Option.map_some, Option.bind_eq_bind, Text.led_cons, Text.cut?_single hy,
          List.drop_one, List.tail_cons, found, inner]
        cases hclose : firstWith? (endMarker name) (m :: rest) with
        | none => rfl
        | some p =>
          obtain ⟨body, e, vs⟩ := p
          obtain ⟨hrest, -, he⟩ := Text.firstWith?_eq_some_iff.1 hclose
          cases hcut' : Text.cut? (endMarker name) e with
          | none => exact absurd he (Text.cut?_eq_none_iff.1 hcut')
          | some q =>
            obtain ⟨x', y'⟩ := q
            have hxy' := Text.append_of_cut? hcut'
            have hx' : '\n' ∉ x' := fun hx => hm e (by simp [hrest]) (by simp [← hxy', hx])
            simp only [hcut', Option.bind_some, Option.map_some, lastLineSplit_ended_append body hx']
            simp [Tagged.toSection, between, ← hxy, ← hxy']

end EntityScaffold.SharedFile
