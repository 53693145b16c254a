import EntityScaffold.SharedFile.Insertion
import EntityScaffold.Proofs.SharedFile.Snippet
import EntityScaffold.Proofs.Text.Blank
import Mathlib.Data.List.TakeWhile

/-
One insertion by lines: a block of lines enters a file, as whole lines between two others, or before an anchor inside a
line, which it parts. A needle that neither seam can make or break is counted in the file and in the block alike.
-/

namespace EntityScaffold.SharedFile

open Text (lines ended led between firstWith? isBlank Straddles occurrences occurrencesIn)
open Template (Context substitute)

/-- A line with blanks before it. -/
def Indented (l m : Text) : Prop := ∃ indent, (∀ c ∈ indent, isBlank c = true) ∧ m = indent ++ l

/-- Every line of a block stands in one of the lines. -/
def AllIn (block ls : List Text) : Prop := ∀ l ∈ block, ∃ m ∈ ls, l <:+: m

/-- How a block enters before an anchor: the lines of that place, before and after. -/
inductive Entered (anchor : Text) (block : List Text) : List Text → List Text → Prop
  /-- The block enters as whole lines. -/
  | whole {new : List Text} (entered : List.Forall₂ Indented block new) : Entered anchor block [] new
  /-- The anchor's line is parted before the anchor, and the block's first line joins its start. -/
  | within {first : Text} {rest : List Text} (parts : block = first :: rest) (start finish : Text) :
      Entered anchor block [start ++ (anchor ++ finish)] ((start ++ first) :: (rest ++ [anchor ++ finish]))

/-- No seam that a block makes by entering before an anchor makes or breaks the needle. -/
structure IsClear (needle anchor : Text) (block : List Text) : Prop where
  visible : ∃ c r, needle = c :: r ∧ isBlank c = false
  unbroken : ∀ start finish, ¬ Straddles needle start (anchor ++ finish)
  unmade : ∀ start, ∀ l ∈ block.head?, ¬ Straddles needle start l

theorem IsClear.ne_nil {needle anchor : Text} {block : List Text} (h : IsClear needle anchor block) : needle ≠ [] := by
  obtain ⟨c, r, rfl, -⟩ := h.visible
  exact List.cons_ne_nil c r

theorem occurrences_indented {c : Char} {r l m : Text} (hc : isBlank c = false) (h : Indented l m) :
    occurrences (c :: r) m = occurrences (c :: r) l := by
  obtain ⟨indent, hblank, rfl⟩ := h
  have hmem : c ∉ indent := fun hm => by simp [hblank c hm] at hc
  have hnone : occurrences (c :: r) indent = 0 := by
    rw [Text.occurrences_eq_zero_iff (List.cons_ne_nil c r)]
    exact fun hi => hmem (hi.subset List.mem_cons_self)
  rw [Text.occurrences_append (Text.not_straddles_of_head hmem l), hnone, Nat.zero_add]

theorem Indented.inside {l m : Text} (h : Indented l m) : l <:+: m := by
  obtain ⟨indent, -, rfl⟩ := h
  exact (List.suffix_append indent l).isInfix

theorem occurrencesIn_indented {needle : Text} (hv : ∃ c r, needle = c :: r ∧ isBlank c = false)
    {block new : List Text} (h : List.Forall₂ Indented block new) :
    occurrencesIn needle new = occurrencesIn needle block := by
  obtain ⟨c, r, rfl, hc⟩ := hv
  induction h with
  | nil => rfl
  | cons hl _ ih => rw [Text.occurrencesIn_cons, Text.occurrencesIn_cons, occurrences_indented hc hl, ih]

theorem Entered.occurrencesIn_eq {needle anchor : Text} {block old new : List Text} (hc : IsClear needle anchor block)
    (h : Entered anchor block old new) :
    occurrencesIn needle new = occurrencesIn needle old + occurrencesIn needle block := by
  cases h with
  | whole entered => simpa using occurrencesIn_indented hc.visible entered
  | @within first rest parts start finish =>
    have joined := Text.occurrences_append (hc.unmade start first (by simp [parts]))
    have parted := Text.occurrences_append (hc.unbroken start finish)
    rw [parts]
    simp only [Text.occurrencesIn_cons, Text.occurrencesIn_append, Text.occurrencesIn_nil, joined, parted]
    omega

theorem Entered.kept {needle anchor : Text} {block old new : List Text} (hn : needle ≠ [])
    (unbroken : ∀ start finish, ¬ Straddles needle start (anchor ++ finish)) (h : Entered anchor block old new)
    (hold : ∃ l ∈ old, needle <:+: l) : ∃ l ∈ new, needle <:+: l := by
  cases h with
  | whole entered => simp at hold
  | @within first rest parts start finish =>
    obtain ⟨l, hl, hi⟩ := hold
    obtain rfl := List.mem_singleton.1 hl
    rcases (Text.infix_append_iff hn (unbroken start finish)).1 hi with hs | hf
    · exact ⟨start ++ first, List.mem_cons_self, hs.trans (List.prefix_append start first).isInfix⟩
    · exact ⟨anchor ++ finish, by simp, hf⟩

theorem allIn_of_indented {block new : List Text} (h : List.Forall₂ Indented block new) : AllIn block new := by
  induction h with
  | nil => simp [AllIn]
  | @cons l m ls ms hl _ ih =>
    intro k hk
    rcases List.mem_cons.1 hk with rfl | hk
    · exact ⟨m, List.mem_cons_self, hl.inside⟩
    · obtain ⟨n, hn, hi⟩ := ih k hk
      exact ⟨n, List.mem_cons_of_mem m hn, hi⟩

theorem Entered.allIn {anchor : Text} {block old new : List Text} (h : Entered anchor block old new) :
    AllIn block new := by
  cases h with
  | whole entered => exact allIn_of_indented entered
  | @within first rest parts start finish =>
    intro l hl
    rcases List.mem_cons.1 (parts ▸ hl) with rfl | hr
    · exact ⟨start ++ l, List.mem_cons_self, (List.suffix_append start l).isInfix⟩
    · exact ⟨l, by simp [hr], List.infix_refl l⟩

theorem AllIn.mono {block us vs : List Text} (h : AllIn block us) (sub : us ⊆ vs) : AllIn block vs := by
  intro l hl
  obtain ⟨m, hm, hi⟩ := h l hl
  exact ⟨m, sub hm, hi⟩

/-- The section that an insertion prefers, by lines. -/
def Insertion.tagged? (i : Insertion) (ls : List Text) : Option Tagged :=
  match i.sectionName with
  | none => none
  | some name => if name.isEmpty then none else SharedFile.tagged? name ls

/-- What an insertion comes to with the values of a context: its anchor, and its snippet as a block of neat lines. -/
structure Insertion.Renders (context : Context) (i : Insertion) (anchor : Text) (block : List Text) : Prop where
  anchor_eq : substitute i.anchor context = anchor
  anchor_ne_nil : anchor ≠ []
  anchor_line : '\n' ∉ anchor
  snippet_eq : substitute i.snippet context = ended block
  block_ne_nil : block ≠ []
  neat : ∀ l ∈ block, IsNeat l
  name_line : ∀ name, i.sectionName = some name → '\n' ∉ name

/-- What becomes of an insertion, by the lines of the text. -/
inductive SpliceBy (i : Insertion) (anchor : Text) (block ls : List Text) : Splice → Prop
  | thereInSection {s : Tagged} (found : i.tagged? ls = some s) (there : AllIn block s.body) :
      SpliceBy i anchor block ls .alreadyThere
  | thereInText (missing : i.tagged? ls = none) (there : AllIn block ls) : SpliceBy i anchor block ls .alreadyThere
  | intoSection {s : Tagged} {new : List Text} {content : Text} (found : i.tagged? ls = some s)
      (absent : ¬ AllIn block s.body) (entered : List.Forall₂ Indented block new)
      (after : lines content = s.before ++ (s.body ++ (new ++ s.closing :: s.after))) :
      SpliceBy i anchor block ls (.inserted content)
  | beforeAnchor {us old new vs : List Text} {content : Text} (missing : i.tagged? ls = none)
      (absent : ¬ AllIn block ls) (place : ∃ l ∈ ls, anchor <:+: l) (before : ls = us ++ (old ++ vs))
      (entered : Entered anchor block old new) (after : lines content = us ++ (new ++ vs)) : SpliceBy i anchor block ls (.inserted content)
  | nowhere (missing : i.tagged? ls = none) (absent : ¬ AllIn block ls) (lost : ∀ l ∈ ls, ¬ anchor <:+: l) :
      SpliceBy i anchor block ls (.anchorMissing anchor)

theorem Insertion.section?_eq_tagged? {context : Context} {i : Insertion} {anchor : Text} {block : List Text}
    (h : i.Renders context anchor block) (t : Text) : i.section? t = (i.tagged? (lines t)).map Tagged.toSection := by
  unfold Insertion.section? Insertion.tagged?
  cases hn : i.sectionName with
  | none => rfl
  | some name =>
    cases he : name.isEmpty with
    | true => simp [he]
    | false => simpa [he] using SharedFile.section?_eq_tagged? (h.name_line name hn) t

theorem tagged?_lines {name : Text} {ls : List Text} {s : Tagged} (h : SharedFile.tagged? name ls = some s) :
    ls = s.before ++ (s.body ++ s.closing :: s.after) := by
  obtain ⟨⟨us, opening, rest⟩, hopen, h⟩ := Option.bind_eq_some_iff.1 h
  obtain ⟨⟨body, closing, after⟩, hclose, rfl⟩ := Option.map_eq_some_iff.1 h
  rw [(Text.firstWith?_eq_some_iff.1 hopen).1, (Text.firstWith?_eq_some_iff.1 hclose).1]
  simp

theorem Insertion.tagged?_lines {i : Insertion} {ls : List Text} {s : Tagged} (h : i.tagged? ls = some s) :
    ls = s.before ++ (s.body ++ s.closing :: s.after) := by
  unfold Insertion.tagged? at h
  cases hn : i.sectionName with
  | none => simp [hn] at h
  | some name =>
    cases he : name.isEmpty with
    | true => simp [hn, he] at h
    | false => exact SharedFile.tagged?_lines (by simpa [hn, he] using h)

/-- A made insertion replaces lines by themselves and its block. -/
theorem SpliceBy.entered {i : Insertion} {anchor content : Text} {block ls : List Text}
    (h : SpliceBy i anchor block ls (.inserted content)) :
    ∃ us old new vs, ls = us ++ (old ++ vs) ∧ lines content = us ++ (new ++ vs) ∧ Entered anchor block old new := by
  cases h with
  | @intoSection s new content found absent entered after =>
    refine ⟨s.before ++ s.body, [], new, s.closing :: s.after, ?_, ?_, .whole entered⟩
    · rw [List.nil_append, List.append_assoc]
      exact Insertion.tagged?_lines found
    · rw [List.append_assoc]
      exact after
  | @beforeAnchor us old new vs content missing absent place before entered after =>
    exact ⟨us, old, new, vs, before, after, entered⟩

theorem allIn_lines_iff {block : List Text} (h : ∀ l ∈ block, IsNeat l) {t : Text} :
    (∀ l ∈ block, l <:+: t) ↔ AllIn block (lines t) :=
  forall₂_congr fun l hl => Text.infix_iff_lines (h l hl).ne_nil (h l hl).not_mem

theorem lines_ended {ls : List Text} (h : ∀ l ∈ ls, '\n' ∉ l) : lines (ended ls) = ls ++ [[]] := by
  simpa [Text.splitAt] using Text.lines_ended_append h []

theorem present_body_iff {block body : List Text} (hne : block ≠ []) (h : ∀ l ∈ block, IsNeat l)
    (hbody : ∀ l ∈ body, '\n' ∉ l) : present (ended body) (ended block) = true ↔ AllIn block body := by
  rw [present_ended_iff hne h, allIn_lines_iff h, lines_ended hbody]
  constructor
  · intro hall l hl
    obtain ⟨m, hm, hi⟩ := hall l hl
    rcases List.mem_append.1 hm with hm | hm
    · exact ⟨m, hm, hi⟩
    · obtain rfl := List.mem_singleton.1 hm
      exact absurd (List.eq_nil_of_infix_nil hi) (h l hl).ne_nil
  · intro hall
    exact hall.mono (List.subset_append_left body [[]])

theorem indented_map {block : List Text} {indent : Text} (h : ∀ c ∈ indent, isBlank c = true) :
    List.Forall₂ Indented block (block.map (indent ++ ·)) := by
  induction block with
  | nil => exact .nil
  | cons l ls ih => exact .cons ⟨indent, h, rfl⟩ ih

theorem not_mem_indented {block : List Text} (h : ∀ l ∈ block, IsNeat l) {indent : Text} (hi : '\n' ∉ indent) :
    ∀ m ∈ block.map (indent ++ ·), '\n' ∉ m := by
  intro m hm
  obtain ⟨l, hl, rfl⟩ := List.mem_map.1 hm
  exact fun hmem => (List.mem_append.1 hmem).elim hi (h l hl).not_mem

theorem lines_append_section {block ls : List Text} (hne : block ≠ []) (h : ∀ l ∈ block, IsNeat l)
    (hls : ∀ l ∈ ls, '\n' ∉ l) {s : Tagged} (hs : ls = s.before ++ (s.body ++ s.closing :: s.after)) :
    ∃ new, List.Forall₂ Indented block new ∧
      lines (s.toSection.append (ended block)) = s.before ++ (s.body ++ (new ++ s.closing :: s.after)) := by
  have hindent : ∀ c ∈ (between [] s.closing s.after).takeWhile isIndent, isIndent c = true := fun c hc =>
    List.mem_takeWhile_imp hc
  generalize hi : (between [] s.closing s.after).takeWhile isIndent = indent at hindent
  have hline : '\n' ∉ indent := fun hm => absurd (hindent '\n' hm) (by decide)
  refine ⟨block.map (indent ++ ·), indented_map fun c hc => isBlank_of_isIndent (hindent c hc), ?_⟩
  have text : s.toSection.append (ended block) =
      s.toSection.before ++ s.toSection.body ++ ended (block.map (indent ++ ·)) ++ s.toSection.after := by
    rw [← indented_ended hne h, ← hi]
    rfl
  rw [text]
  exact s.lines_extended (hs ▸ hls) (not_mem_indented h hline)

/-- The indentation of an anchor, when nothing but blanks stands before it on its line. -/
def indentOf (start : Text) : Text := if (Text.strip start).isEmpty then start else []

theorem insertBeforeAnchor?_eq {anchor t start rest l : Text} {block us vs : List Text} (ha : anchor ≠ [])
    (hline : '\n' ∉ anchor) (hne : block ≠ []) (h : ∀ l ∈ block, IsNeat l)
    (hfirst : firstWith? anchor (lines t) = some (us, l, vs)) (hcut : Text.cut? anchor l = some (start, rest))
    (hstart : '\n' ∉ start) :
    insertBeforeAnchor? t anchor (ended block) = some (ended us ++ start ++
      (ended (block.map (indentOf start ++ ·))).dropWhile isIndent ++ indentOf start ++ (rest ++ led vs)) := by
  rw [insertBeforeAnchor?, Text.cut?_eq_firstWith? ha hline, hfirst]
  simp only [hcut, Option.bind_some, Option.map_some, Option.bind_eq_bind, lastLineSplit_ended_append us hstart,
    indented_ended hne h]
  rfl

theorem lines_insert_alone {block us vs : List Text} {start rest : Text} (hne : block ≠ []) (h : ∀ l ∈ block, IsNeat l)
    (hus : ∀ u ∈ us, '\n' ∉ u) (hvs : ∀ v ∈ vs, '\n' ∉ v) (hl : '\n' ∉ start ++ rest)
    (hblank : ∀ c ∈ start, isBlank c = true) :
    ∃ new, List.Forall₂ Indented block new ∧
      lines (ended us ++ start ++ (ended (block.map (indentOf start ++ ·))).dropWhile isIndent ++ indentOf start ++
        (rest ++ led vs)) = us ++ (new ++ (start ++ rest) :: vs) := by
  obtain ⟨first, others, rfl⟩ := List.exists_cons_of_ne_nil hne
  obtain ⟨c, r, rfl, hvisible⟩ := (h first List.mem_cons_self).starts
  have hindent : isIndent c = false := Bool.eq_false_iff.2 (mt isBlank_of_isIndent (by simp [hvisible]))
  have hstart : '\n' ∉ start := fun hm => hl (List.mem_append_left rest hm)
  have hdrop : '\n' ∉ start.dropWhile isIndent := fun hm => hstart ((List.dropWhile_suffix isIndent).subset hm)
  let new := (start ++ (start.dropWhile isIndent ++ c :: r)) :: others.map (start ++ ·)
  have text : ended us ++ start ++ (ended (((c :: r) :: others).map (indentOf start ++ ·))).dropWhile isIndent ++
      indentOf start ++ (rest ++ led vs) = between (us ++ new) (start ++ rest) vs := by
    simp [new, indentOf, Text.strip_eq_nil_iff.2 hblank, between, Text.dropWhile_append_cons hindent]
  refine ⟨new, .cons ⟨start ++ start.dropWhile isIndent, ?_, by simp⟩ (indented_map hblank), ?_⟩
  · intro d hd
    rcases List.mem_append.1 hd with hd | hd
    · exact hblank d hd
    · exact hblank d ((List.dropWhile_suffix isIndent).subset hd)
  · rw [text, Text.lines_between _ hl hvs, List.append_assoc]
    intro u hu
    rcases List.mem_append.1 hu with hu | hu
    · exact hus u hu
    · rcases List.mem_cons.1 hu with rfl | hu
      · simpa using ⟨hstart, hdrop, by simpa using (h _ List.mem_cons_self).not_mem⟩
      · exact not_mem_indented (fun m hm => h m (List.mem_cons_of_mem _ hm)) hstart u hu

theorem lines_insert_within {first start rest : Text} {others us vs : List Text}
    (h : ∀ l ∈ first :: others, IsNeat l) (hus : ∀ u ∈ us, '\n' ∉ u) (hvs : ∀ v ∈ vs, '\n' ∉ v)
    (hl : '\n' ∉ start ++ rest) (hblank : ¬ ∀ c ∈ start, isBlank c = true) :
    lines (ended us ++ start ++ (ended ((first :: others).map (indentOf start ++ ·))).dropWhile isIndent ++
      indentOf start ++ (rest ++ led vs)) = us ++ ((start ++ first) :: (others ++ [rest]) ++ vs) := by
  obtain ⟨c, r, rfl, hvisible⟩ := (h first List.mem_cons_self).starts
  have hindent : isIndent c = false := Bool.eq_false_iff.2 (mt isBlank_of_isIndent (by simp [hvisible]))
  have visible : (Text.strip start).isEmpty = false := by
    simpa [List.isEmpty_eq_false_iff] using mt Text.strip_eq_nil_iff.1 hblank
  have text : ended us ++ start ++ (ended (((c :: r) :: others).map (indentOf start ++ ·))).dropWhile isIndent ++
      indentOf start ++ (rest ++ led vs) = between (us ++ (start ++ c :: r) :: others) rest vs := by
    simp [indentOf, visible, between, hindent]
  rw [text, Text.lines_between _ (fun hm => hl (List.mem_append_right start hm)) hvs, List.append_assoc]
  · simp
  · intro u hu
    rcases List.mem_append.1 hu with hu | hu
    · exact hus u hu
    · rcases List.mem_cons.1 hu with rfl | hu
      · intro hm
        rcases List.mem_append.1 hm with hm | hm
        · exact hl (List.mem_append_left rest hm)
        · exact (h _ List.mem_cons_self).not_mem hm
      · exact (h u (List.mem_cons_of_mem _ hu)).not_mem

theorem insertBeforeAnchor?_by_lines {anchor t : Text} {block : List Text} (ha : anchor ≠ []) (hline : '\n' ∉ anchor)
    (hne : block ≠ []) (h : ∀ l ∈ block, IsNeat l) :
    (insertBeforeAnchor? t anchor (ended block) = none ∧ ∀ l ∈ lines t, ¬ anchor <:+: l) ∨
      ∃ content us old new vs, insertBeforeAnchor? t anchor (ended block) = some content ∧
        (∃ l ∈ lines t, anchor <:+: l) ∧ lines t = us ++ (old ++ vs) ∧ Entered anchor block old new ∧
        lines content = us ++ (new ++ vs) := by
  have hls : ∀ l ∈ lines t, '\n' ∉ l := fun l hl => Text.not_mem_of_mem_splitAt hl
  cases hfirst : firstWith? anchor (lines t) with
  | none =>
    left
    rw [insertBeforeAnchor?, Text.cut?_eq_firstWith? ha hline, hfirst]
    exact ⟨rfl, Text.firstWith?_eq_none_iff.1 hfirst⟩
  | some p =>
    obtain ⟨us, l, vs⟩ := p
    obtain ⟨hlines, -, hl⟩ := Text.firstWith?_eq_some_iff.1 hfirst
    cases hcut : Text.cut? anchor l with
    | none => exact absurd hl (Text.cut?_eq_none_iff.1 hcut)
    | some q =>
      obtain ⟨start, rest⟩ := q
      obtain rfl := Text.append_of_cut? hcut
      obtain ⟨finish, hrest⟩ := List.isPrefixOf_iff_prefix.1 (Text.isPrefixOf_of_cut? hcut)
      have hline' : '\n' ∉ start ++ rest := hls _ (by simp [hlines])
      have hus : ∀ u ∈ us, '\n' ∉ u := fun u hu => hls u (by simp [hlines, hu])
      have hvs : ∀ v ∈ vs, '\n' ∉ v := fun v hv => hls v (by simp [hlines, hv])
      have made := insertBeforeAnchor?_eq ha hline hne h hfirst hcut fun hm => hline' (List.mem_append_left rest hm)
      have place : ∃ l ∈ lines t, anchor <:+: l := ⟨start ++ rest, by simp [hlines], hl⟩
      right
      by_cases hblank : ∀ c ∈ start, isBlank c = true
      · obtain ⟨new, entered, after⟩ := lines_insert_alone hne h hus hvs hline' hblank
        exact ⟨_, us, [], new, (start ++ rest) :: vs, made, place, hlines, .whole entered, after⟩
      · obtain ⟨first, others, rfl⟩ := List.exists_cons_of_ne_nil hne
        refine ⟨_, us, [start ++ rest], _, vs, made, place, hlines, ?_, lines_insert_within h hus hvs hline' hblank⟩
        rw [← hrest]
        exact .within rfl start finish

theorem splice_by_lines {context : Context} {i : Insertion} {anchor : Text} {block : List Text}
    (h : i.Renders context anchor block) (t : Text) : SpliceBy i anchor block (lines t) (splice context t i) := by
  have hls : ∀ l ∈ lines t, '\n' ∉ l := fun l hl => Text.not_mem_of_mem_splitAt hl
  simp only [splice, h.anchor_eq, h.snippet_eq, Insertion.section?_eq_tagged? h]
  cases hfound : i.tagged? (lines t) with
  | some s =>
    have hs := Insertion.tagged?_lines hfound
    have hbody : present (ended s.body) (ended block) = true ↔ AllIn block s.body :=
      present_body_iff h.block_ne_nil h.neat fun l hl => hls l (by simp [hs, hl])
    simp only [Option.map_some]
    split
    · next hp => exact .thereInSection hfound (hbody.1 hp)
    · next hp =>
      obtain ⟨new, entered, after⟩ := lines_append_section h.block_ne_nil h.neat hls hs
      exact .intoSection hfound (fun hall => hp (hbody.2 hall)) entered after
  | none =>
    have htext : present t (ended block) = true ↔ AllIn block (lines t) := by
      rw [present_ended_iff h.block_ne_nil h.neat, allIn_lines_iff h.neat]
    simp only [Option.map_none]
    split
    · next hp => exact .thereInText hfound (htext.1 hp)
    · next hp =>
      have absent : ¬ AllIn block (lines t) := fun hall => hp (htext.2 hall)
      rcases insertBeforeAnchor?_by_lines h.anchor_ne_nil h.anchor_line h.block_ne_nil h.neat with
        ⟨hnone, lost⟩ | ⟨content, us, old, new, vs, hsome, place, before, entered, after⟩
      · rw [hnone]
        exact .nowhere hfound absent lost
      · rw [hsome]
        exact .beforeAnchor hfound absent place before entered after

end EntityScaffold.SharedFile

