import EntityScaffold.Proofs.Schema.Extraction
import EntityScaffold.Proofs.Schema.Statements

/-
Blocks whose declarations stand one on each line, or several on one line with semicolons between them. The layout decides
nothing: the fields are those of the declarations, in their order.
-/

namespace EntityScaffold.Schema

open Text (IsGap isBlank strip lines ended led joinWith)

variable {entity : Text} {optional : List Text} {t u : Text}

/-- Whether a string is open after a character. -/
def opens (inString : Bool) (c : Char) : Bool := if c = '"' then !inString else inString

theorem closed_tail {c : Char} {inString : Bool} (closed : ((c :: t).count '"' + inString.toNat) % 2 = 0) :
    (t.count '"' + (opens inString c).toNat) % 2 = 0 := by
  by_cases hquote : c = '"'
  · rw [hquote, List.count_cons_self] at closed
    cases inString <;> simp [opens, hquote] at closed ⊢ <;> omega
  · rwa [opens, if_neg hquote, ← List.count_cons_of_ne hquote]

theorem closed_nil {inString : Bool} (closed : (([] : Text).count '"' + inString.toNat) % 2 = 0) : inString = false := by
  cases inString with
  | false => rfl
  | true => simp at closed

theorem outside_cons (inString : Bool) (c : Char) (t : Text) :
    outside inString (c :: t) = (if c = '"' ∨ inString = true then [] else [c]) ++ outside (opens inString c) t := by
  by_cases hquote : c = '"'
  · simp [outside, opens, hquote]
  · cases inString with
    | false => simp [outside, opens, hquote]
    | true => simp [outside, opens, hquote]

theorem outside_append {inString : Bool} (closed : (t.count '"' + inString.toNat) % 2 = 0) (u : Text) :
    outside inString (t ++ u) = outside inString t ++ outside false u := by
  induction t generalizing inString with
  | nil => rw [closed_nil closed, List.nil_append, outside, List.nil_append]
  | cons c t ih => rw [List.cons_append, outside_cons, outside_cons, ih (closed_tail closed), List.append_assoc]

theorem outside_subset (inString : Bool) (t : Text) : outside inString t ⊆ t := by
  induction t generalizing inString with
  | nil => exact List.nil_subset _
  | cons c t ih =>
    rw [outside_cons]
    split
    · exact List.Subset.trans (ih _) (List.subset_cons_self c t)
    · exact List.cons_subset_cons c (ih _)

theorem statements_ne_nil (inString : Bool) (t : Text) : statements inString t ≠ [] := by
  cases t with
  | nil => simp [statements]
  | cons c t =>
    rw [statements]
    split
    · simp
    · split
      · simp
      · simp

theorem statements_cons {inString : Bool} {c : Char} (h : ¬ (c = ';' ∧ inString = false)) (t : Text) :
    statements inString (c :: t) = (statements (opens inString c) t).modifyHead (c :: ·) := by
  obtain ⟨p, ps, hps⟩ := List.exists_cons_of_ne_nil (statements_ne_nil (opens inString c) t)
  rw [opens] at hps
  rw [statements, if_neg (by simpa using h), opens, hps]
  rfl

theorem statements_append {inString : Bool} (closed : (t.count '"' + inString.toNat) % 2 = 0)
    (quoted : ';' ∉ outside inString t) (u : Text) :
    statements inString (t ++ u) = (statements false u).modifyHead (t ++ ·) := by
  induction t generalizing inString with
  | nil =>
    rw [closed_nil closed, List.nil_append]
    cases statements false u <;> rfl
  | cons c t ih =>
    rw [outside_cons, List.mem_append, not_or] at quoted
    obtain ⟨first, rest⟩ := quoted
    have apart : ¬ (c = ';' ∧ inString = false) := by
      rintro ⟨rfl, rfl⟩
      exact first (by simp)
    rw [List.cons_append, statements_cons apart, ih (closed_tail closed) rest]
    cases statements false u <;> rfl

/-- A statement that can stand beside others on a line: no comment, its strings closed, and semicolons in them only. -/
structure IsWhole (t : Text) : Prop where
  noComment : ¬ IsComment t
  closed : t.count '"' % 2 = 0
  quoted : ';' ∉ outside false t

theorem count_joinWith {ts : List Text} (whole : ∀ t ∈ ts, IsWhole t) : (joinWith [';'] ts).count '"' % 2 = 0 := by
  induction ts with
  | nil => rfl
  | cons t ts ih =>
    obtain ⟨ht, hts⟩ := List.forall_mem_cons.1 whole
    cases ts with
    | nil => simpa [joinWith] using ht.closed
    | cons u ts =>
      have first := ht.closed
      have rest := ih hts
      rw [Text.joinWith_cons_cons, List.count_append, List.count_cons_of_ne (by decide)]
      omega

theorem parts_joinWith {ts : List Text} (nonempty : ts ≠ []) (whole : ∀ t ∈ ts, IsWhole t) : parts (joinWith [';'] ts) = ts := by
  rw [parts_eq_statements false _ (by simpa using count_joinWith whole)]
  induction ts with
  | nil => exact absurd rfl nonempty
  | cons t ts ih =>
    obtain ⟨ht, hts⟩ := List.forall_mem_cons.1 whole
    have closed : (t.count '"' + false.toNat) % 2 = 0 := by simpa using ht.closed
    cases ts with
    | nil =>
      have single := statements_append closed ht.quoted []
      simpa [joinWith, statements] using single
    | cons u ts =>
      have rest := ih (List.cons_ne_nil u ts) hts
      rw [Text.joinWith_cons_cons, statements_append closed ht.quoted, statements, if_pos (by simp), rest]
      simp

theorem isComment_append_semicolon (t r : Text) : IsComment (t ++ ';' :: r) ↔ IsComment t := by
  have slashes : ∀ c ∈ "//".toList, isBlank c = false := by decide
  rw [IsComment, IsComment, Text.prefix_strip_iff slashes, Text.prefix_strip_iff slashes,
    Text.dropWhile_append_cons (show isBlank ';' = false by decide)]
  refine Text.prefix_append_iff ?_
  intro c hc
  obtain rfl : ';' = c := by simpa using hc
  decide

theorem not_isComment_joinWith {ts : List Text} (whole : ∀ t ∈ ts, IsWhole t) : ¬ IsComment (joinWith [';'] ts) := by
  cases ts with
  | nil => decide
  | cons t ts =>
    have ht := (whole t List.mem_cons_self).noComment
    cases ts with
    | nil => simpa [joinWith] using ht
    | cons u ts => rwa [Text.joinWith_cons_cons, isComment_append_semicolon]

/-- Whole statements on one line are its statements. -/
theorem statementsOf_joinWith {ts : List Text} (nonempty : ts ≠ []) (whole : ∀ t ∈ ts, IsWhole t) :
    statementsOf (joinWith [';'] ts) = ts := by
  rw [statementsOf, if_neg (not_isComment_joinWith whole), parts_joinWith nonempty whole]

def fieldOf? (optional : List Text) (s : Text) : Option Field :=
  if IsOwn s then Field.ofLine? optional s else none

theorem given_own {ss : List Text} (noMark : ∀ s ∈ ss, ¬ IsMark s) :
    given optional (own ss) = ss.filterMap (fieldOf? optional) := by
  induction ss with
  | nil => rfl
  | cons s ss ih =>
    obtain ⟨hs, hss⟩ := List.forall_mem_cons.1 noMark
    rw [given] at ih
    by_cases howned : IsOwn s
    · rw [own_cons, if_neg hs, if_pos howned, given, List.filterMap_cons, List.filterMap_cons, ih hss, fieldOf?,
        if_pos howned]
    · rw [own_cons, if_neg hs, if_neg howned, given, List.filterMap_cons, ih hss, fieldOf?, if_neg howned]

/-- Spaces and tabs around a declaration. -/
structure Spacing where
  before : Text
  after : Text
  gaps : ∀ c ∈ before ++ after, isGap c = true

/-- A field or an attribute of the block as it is declared: on one line, without a closing brace, not as a comment. Its
strings are closed, and it has semicolons in them only. -/
structure Declaration where
  text : Text
  oneLine : '\n' ∉ text
  noClosing : '\x7d' ∉ text
  whole : IsWhole text

namespace Spacing

variable (s : Spacing)

def around (t : Text) : Text := s.before ++ (t ++ s.after)

theorem isBlank_of_isGap {c : Char} (h : isGap c = true) : isBlank c = true := by
  simp only [isGap, Bool.or_eq_true, decide_eq_true_eq] at h
  rcases h with rfl | rfl
  · decide
  · decide

theorem isGap_before : IsGap s.before := fun c hc => isBlank_of_isGap (s.gaps c (List.mem_append_left _ hc))

theorem isGap_after : IsGap s.after := fun c hc => isBlank_of_isGap (s.gaps c (List.mem_append_right _ hc))

theorem strip_around (t : Text) : strip (s.around t) = strip t := by
  rw [around, Text.strip_gap_append s.isGap_before, Text.strip_append_gap s.isGap_after]

theorem fieldOf?_around (optional : List Text) (t : Text) : fieldOf? optional (s.around t) = fieldOf? optional t := by
  rw [fieldOf?, fieldOf?, ← field?_ofText, ← field?_ofText, strip_around]

theorem not_mem_around {c : Char} (hc : isGap c = false) (ht : c ∉ t) : c ∉ s.around t := by
  have spaces : c ∉ s.before ++ s.after := fun h => absurd (s.gaps c h) (by simp [hc])
  simp only [List.mem_append, not_or] at spaces
  simp [around, ht, spaces]

theorem isWhole_around (whole : IsWhole t) : IsWhole (s.around t) := by
  have noQuote : s.before.count '"' = 0 ∧ s.after.count '"' = 0 := by
    have spaces : '"' ∉ s.before ++ s.after := fun h => absurd (s.gaps _ h) (by decide)
    simp only [List.mem_append, not_or] at spaces
    exact ⟨List.count_eq_zero.2 spaces.1, List.count_eq_zero.2 spaces.2⟩
  have noSemicolon : ';' ∉ s.before ++ s.after := fun h => absurd (s.gaps _ h) (by decide)
  constructor
  · rw [IsComment, strip_around]
    exact whole.noComment
  · rw [around, List.count_append, List.count_append, noQuote.1, noQuote.2]
    simpa using whole.closed
  · rw [around, outside_append (by simp [noQuote.1]), outside_append (by simpa using whole.closed)]
    simp only [List.mem_append, not_or] at noSemicolon ⊢
    refine ⟨fun h => noSemicolon.1 (outside_subset _ _ h), whole.quoted, fun h => noSemicolon.2 (outside_subset _ _ h)⟩

end Spacing

/-- Declarations, each with the spaces and tabs around it. -/
def spaced (spacing : Nat → Spacing) (ds : List Declaration) : List Text :=
  ds.mapIdx fun i d => (spacing i).around d.text

theorem exists_of_mem_spaced {spacing : Nat → Spacing} {ds : List Declaration} (h : t ∈ spaced spacing ds) :
    ∃ s : Spacing, ∃ d : Declaration, t = s.around d.text := by
  obtain ⟨i, hi, rfl⟩ := List.mem_mapIdx.1 h
  exact ⟨spacing i, ds[i], rfl⟩

theorem filterMap_spaced (optional : List Text) (spacing : Nat → Spacing) (ds : List Declaration) :
    (spaced spacing ds).filterMap (fieldOf? optional) = ds.filterMap fun d => fieldOf? optional d.text := by
  induction ds generalizing spacing with
  | nil => rfl
  | cons d ds ih =>
    have rest := ih fun i => spacing (i + 1)
    rw [spaced] at rest
    rw [spaced, List.mapIdx_cons, List.filterMap_cons, List.filterMap_cons, Spacing.fieldOf?_around, rest]

/-- What stands around the declarations of a block: its header, after lines of which none is one, blank lines after the
opening brace and before the closing one, and what follows. The first of these blank lines is the rest of the header's line,
the last one stands before the closing brace; without any, the declarations go on from one brace to the other. -/
structure Frame (entity : Text) where
  before : List Text
  header : Header
  leading : List Text
  trailing : List Text
  rest : Text
  noHeader : ∀ l ∈ before, '\n' ∉ l ∧ afterHeader? entity l = none
  declares : header.Declares entity
  gaps : ∀ l ∈ leading ++ trailing, ∀ c ∈ l, isGap c = true

namespace Frame

variable (f : Frame entity)

/-- What stands between the braces when the declarations stand on the given lines. -/
def inside (ls : List Text) : Text := ended f.leading ++ (['\n'].intercalate ls ++ led f.trailing)

def source (ls : List Text) : Text := ended f.before ++ (f.header.line ++ (f.inside ls ++ '\x7d' :: f.rest))

theorem not_mem_of_blank {c : Char} (hc : isGap c = false) : ∀ l ∈ f.leading ++ f.trailing, c ∉ l :=
  fun l hl h => absurd (f.gaps l hl c h) (by simp [hc])

theorem block?_source {ls : List Text} (noClosing : ∀ l ∈ ls, '\x7d' ∉ l) :
    block? (f.source ls) entity = some (f.inside ls) := by
  have oneLine : '\n' ∉ entity := f.declares.2 ▸ f.header.name_word.oneLine
  have blank := f.not_mem_of_blank (c := '\x7d') (by decide)
  have absent : '\x7d' ∉ f.inside ls := by
    rw [inside, List.mem_append, List.mem_append, not_or, not_or]
    refine ⟨?_, ?_, ?_⟩
    · intro h
      obtain ⟨l, hl, hc⟩ := List.mem_flatMap.1 h
      exact blank l (List.mem_append_left _ hl) (by simpa using hc)
    · cases ls with
      | nil => simp
      | cons l ls =>
        rw [Text.intercalate_eq_led, List.mem_append, not_or]
        refine ⟨noClosing l List.mem_cons_self, fun h => ?_⟩
        obtain ⟨m, hm, hc⟩ := List.mem_flatMap.1 h
        exact noClosing m (List.mem_cons_of_mem l hm) (by simpa using hc)
    · intro h
      obtain ⟨l, hl, hc⟩ := List.mem_flatMap.1 h
      exact blank l (List.mem_append_right _ hl) (by simpa using hc)
  rw [block?, source, blockFrom?_lines oneLine f.noHeader]
  refine blockFrom?_of_here ?_
  rw [blockHere?, f.header.afterHeader?_line_of_declares f.declares]
  simp only [Text.cut?_single absent, Option.map_some]

theorem lines_inside {l : Text} {ls : List Text} (oneLine : ∀ m ∈ l :: ls, '\n' ∉ m) :
    lines (f.inside (l :: ls)) = f.leading ++ (l :: ls) ++ f.trailing := by
  have blank := f.not_mem_of_blank (c := '\n') (by decide)
  have whole : f.inside (l :: ls) = Text.between f.leading l (ls ++ f.trailing) := by
    rw [inside, Text.intercalate_eq_led, Text.between]
    simp [led]
  obtain ⟨hl, hls⟩ := List.forall_mem_cons.1 oneLine
  rw [whole, Text.lines_between (fun m hm => blank m (List.mem_append_left _ hm)) hl]
  · simp
  · intro m hm
    rcases List.mem_append.1 hm with hm | hm
    · exact hls m hm
    · exact blank m (List.mem_append_right _ hm)

theorem statements_of_blank (optional : List Text) {ls : List Text} (blank : ∀ l ∈ ls, ∀ c ∈ l, isGap c = true) :
    (∀ s ∈ ls.flatMap statementsOf, ¬ IsComment s) ∧ (ls.flatMap statementsOf).filterMap (fieldOf? optional) = [] := by
  have single : ls.flatMap statementsOf = ls := by
    rw [List.flatMap_congr fun l hl => statementsOf_of_not_mem fun h => absurd (blank l hl _ h) (by decide)]
    exact List.flatMap_singleton' ls
  have gap : ∀ l ∈ ls, IsGap l := fun l hl c hc => Spacing.isBlank_of_isGap (blank l hl c hc)
  rw [single]
  refine ⟨fun l hl => not_isComment_of_gap (gap l hl), ?_⟩
  rw [List.filterMap_eq_nil_iff]
  intro l hl
  rw [fieldOf?, if_neg fun own => own.notBlank (gap l hl)]

theorem fields_inside {ls : List Text} (oneLine : ∀ l ∈ ls, '\n' ∉ l)
    (noComment : ∀ s ∈ ls.flatMap statementsOf, ¬ IsComment s) :
    (modelOfBody entity optional (f.inside ls)).fields = (ls.flatMap statementsOf).filterMap (fieldOf? optional) := by
  have nonempty {l : Text} {ls : List Text} (oneLine : ∀ m ∈ l :: ls, '\n' ∉ m)
      (noComment : ∀ s ∈ (l :: ls).flatMap statementsOf, ¬ IsComment s) :
      (modelOfBody entity optional (f.inside (l :: ls))).fields =
        ((l :: ls).flatMap statementsOf).filterMap (fieldOf? optional) := by
    obtain ⟨leadingComment, leadingFields⟩ := statements_of_blank optional fun m hm =>
      f.gaps m (List.mem_append_left f.trailing hm)
    obtain ⟨trailingComment, trailingFields⟩ := statements_of_blank optional fun m hm =>
      f.gaps m (List.mem_append_right f.leading hm)
    have noMark : ∀ s ∈ (f.leading ++ (l :: ls) ++ f.trailing).flatMap statementsOf, ¬ IsMark s := by
      intro s hs mark
      rw [List.flatMap_append, List.flatMap_append, List.mem_append, List.mem_append] at hs
      rcases hs with (hs | hs) | hs
      · exact leadingComment s hs mark.1
      · exact noComment s hs mark.1
      · exact trailingComment s hs mark.1
    rw [fields_eq_given, f.lines_inside oneLine, given_own noMark, List.flatMap_append, List.flatMap_append,
      List.filterMap_append, List.filterMap_append, leadingFields, trailingFields, List.nil_append, List.append_nil]
  cases ls with
  | nil =>
    -- No line between the braces is one blank line.
    have blank : f.inside [] = f.inside [[]] := rfl
    rw [blank, nonempty (by simp) (by decide)]
    exact (statements_of_blank optional (by simp)).2
  | cons l ls => exact nonempty oneLine noComment

end Frame

theorem isWhole_of_mem_spaced {spacing : Nat → Spacing} {ds : List Declaration} (h : t ∈ spaced spacing ds) :
    IsWhole t ∧ '\n' ∉ t ∧ '\x7d' ∉ t := by
  obtain ⟨s, d, rfl⟩ := exists_of_mem_spaced h
  exact ⟨s.isWhole_around d.whole, s.not_mem_around (by decide) d.oneLine, s.not_mem_around (by decide) d.noClosing⟩

theorem not_mem_joinWith {c : Char} (hc : c ≠ ';') {ts : List Text} (h : ∀ t ∈ ts, c ∉ t) : c ∉ joinWith [';'] ts := by
  intro mem
  rcases Text.mem_joinWith mem with sep | ⟨t, ht, hmem⟩
  · exact hc (List.mem_singleton.1 sep)
  · exact h t ht hmem

def onOneLine (spacing : Nat → Spacing) (ds : List Declaration) : List Text := [joinWith [';'] (spaced spacing ds)]

def onePerLine (spacing : Nat → Spacing) (ds : List Declaration) : List Text := spaced spacing ds

/-- The fields of declarations, in their order; attributes of the block give none. -/
def fieldsOf (optional : List Text) (ds : List Declaration) : List Field := ds.filterMap fun d => fieldOf? optional d.text

variable (f : Frame entity) (optional) (spacing : Nat → Spacing) (ds : List Declaration)

theorem Frame.model_onePerLine : block? (f.source (onePerLine spacing ds)) entity = some (f.inside (onePerLine spacing ds)) ∧
    (modelOfBody entity optional (f.inside (onePerLine spacing ds))).fields = fieldsOf optional ds := by
  have whole {t : Text} (ht : t ∈ onePerLine spacing ds) : IsWhole t ∧ '\n' ∉ t ∧ '\x7d' ∉ t := isWhole_of_mem_spaced ht
  have single : (onePerLine spacing ds).flatMap statementsOf = onePerLine spacing ds := by
    have each : ∀ t ∈ onePerLine spacing ds, statementsOf t = [t] := by
      intro t ht
      have alone := statementsOf_joinWith (List.cons_ne_nil t []) (List.forall_mem_singleton.2 (whole ht).1)
      simpa [joinWith] using alone
    rw [List.flatMap_congr each, List.flatMap_singleton']
  refine ⟨f.block?_source fun t ht => (whole ht).2.2, ?_⟩
  rw [f.fields_inside (fun t ht => (whole ht).2.1), single]
  · exact filterMap_spaced optional spacing ds
  · rw [single]
    exact fun t ht => (whole ht).1.noComment

theorem Frame.model_onOneLine : block? (f.source (onOneLine spacing ds)) entity = some (f.inside (onOneLine spacing ds)) ∧
    (modelOfBody entity optional (f.inside (onOneLine spacing ds))).fields = fieldsOf optional ds := by
  have whole {t : Text} (ht : t ∈ spaced spacing ds) := isWhole_of_mem_spaced ht
  have line : ∀ c, c ≠ ';' → (∀ t ∈ spaced spacing ds, c ∉ t) → ∀ l ∈ onOneLine spacing ds, c ∉ l :=
    fun c hc absent => List.forall_mem_singleton.2 (not_mem_joinWith hc absent)
  refine ⟨f.block?_source (line _ (by decide) fun t ht => (whole ht).2.2), ?_⟩
  cases ds with
  | nil =>
    have blank : onOneLine spacing [] = [[]] := rfl
    rw [blank, f.fields_inside (by simp) (by decide)]
    exact (statements_of_blank optional (by simp)).2
  | cons d ds =>
    have statements : (onOneLine spacing (d :: ds)).flatMap statementsOf = spaced spacing (d :: ds) := by
      rw [onOneLine, List.flatMap_singleton]
      exact statementsOf_joinWith (by simp [spaced]) fun t ht => (whole ht).1
    rw [f.fields_inside (line _ (by decide) fun t ht => (whole ht).2.1), statements]
    · exact filterMap_spaced optional spacing (d :: ds)
    · rw [statements]
      exact fun t ht => (whole ht).1.noComment

end EntityScaffold.Schema
