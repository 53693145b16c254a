import EntityScaffold.Schema.Extraction
import EntityScaffold.Proofs.Naming
import EntityScaffold.Proofs.Schema.Block
import Mathlib.Data.List.DropRight

/-
What is read of a block, against what its lines declare. Statements are parted at semicolons outside of strings; the
block is cut at its first closing brace, in a string or a comment too.
-/

namespace EntityScaffold.Schema

open Naming (Identifier)
open Text (lines ended isBlank)

variable {optional : List Text}

/-- The statements of a line: it is parted at the semicolons outside of strings, from the left; a string runs from one
double quote to the next. -/
def statements : Bool → Text → List Text
  | _, [] => [[]]
  | inString, c :: r =>
    if c = ';' && !inString then [] :: statements false r
    else match statements (if c = '"' then !inString else inString) r with
      | [] => [[c]]
      | p :: ps => (c :: p) :: ps

/-- Where every string is closed, counting the quotes that follow finds the same semicolons as following the strings. -/
theorem parts_eq_statements (inString : Bool) (t : Text) (h : (t.count '"' + inString.toNat) % 2 = 0) :
    parts t = statements inString t := by
  induction t generalizing inString with
  | nil => rfl
  | cons c r ih =>
    by_cases hsep : c = ';'
    · have quotes : (c :: r).count '"' = r.count '"' := by simp [hsep]
      rw [quotes] at h
      have notQuote : c ≠ '"' := by simp [hsep]
      cases inString with
      | false =>
        have even : r.count '"' % 2 = 0 := by simpa using h
        simp [parts, statements, hsep, even, ih false (by simpa using h)]
      | true =>
        have odd : ¬ r.count '"' % 2 = 0 := by
          simp only [Bool.toNat_true] at h
          omega
        simp only [parts, statements, hsep, odd, ih true h]
        cases hs : statements true r <;> simp [hs]
    · by_cases hquote : c = '"'
      · have rest : (r.count '"' + (!inString).toNat) % 2 = 0 := by
          rw [hquote, List.count_cons_self] at h
          cases inString <;> simp at h ⊢ <;> omega
        simp only [parts, statements, hquote, ih (!inString) rest]
        cases hs : statements (!inString) r <;> simp [hs]
      · have quotes : (c :: r).count '"' = r.count '"' := by simp [hquote]
        rw [quotes] at h
        simp only [parts, statements, hsep, hquote, ih inString h]
        cases hs : statements inString r <;> simp [hs]

def outside : Bool → Text → Text
  | _, [] => []
  | inString, c :: r =>
    if c = '"' then outside (!inString) r
    else if inString then outside inString r
    else c :: outside inString r

def IsComment (l : Text) : Prop := "//".toList <+: Text.strip l

instance (l : Text) : Decidable (IsComment l) := inferInstanceAs (Decidable (_ <+: _))

/-- A line of declarations: its strings are closed, and no closing brace stands outside of them. -/
structure IsDeclaring (l : Text) : Prop where
  noComment : ¬ IsComment l
  closed : (Text.strip l).count '"' % 2 = 0
  quoted : '\x7d' ∉ outside false (Text.strip l)

/-- What a line of a block declares: a comment is one logical line, any other line is its statements. -/
def declarations (l : Text) : List Text :=
  if IsComment l then [Text.strip l] else (statements false (Text.strip l)).map Text.strip

theorem logicalLines_eq (l : Text) : logicalLines l =
    if "//".toList.isPrefixOf (Text.strip l) then [Text.strip l] else (parts (Text.strip l)).map Text.strip := rfl

theorem logicalLines_eq_declarations {l : Text} (h : IsComment l ∨ IsDeclaring l) :
    logicalLines l = declarations l := by
  rw [logicalLines_eq, declarations]
  rcases h with hc | hd
  · rw [if_pos (List.isPrefixOf_iff_prefix.2 hc), if_pos hc]
  · rw [if_neg (mt List.isPrefixOf_iff_prefix.1 hd.noComment), if_neg hd.noComment,
      parts_eq_statements false _ (by simpa using hd.closed)]

/-- What is read of lines. -/
def readingOf (optional ls : List Text) : List Line := (ls.flatMap logicalLines).map (Line.ofText optional)

/-- What lines declare. -/
def meaningOf (optional ls : List Text) : List Line := (ls.flatMap declarations).map (Line.ofText optional)

/-- The fields before the relation mark. -/
def fieldsBefore (ls : List Line) : List Field := (ls.takeWhile (· ≠ .relationMark)).filterMap Line.field?

@[simp] theorem readingOf_append (us vs : List Text) :
    readingOf optional (us ++ vs) = readingOf optional us ++ readingOf optional vs := by
  simp [readingOf]

@[simp] theorem meaningOf_append (us vs : List Text) :
    meaningOf optional (us ++ vs) = meaningOf optional us ++ meaningOf optional vs := by
  simp [meaningOf]

theorem readingOf_eq_meaningOf {ls : List Text} (h : ∀ l ∈ ls, IsComment l ∨ IsDeclaring l) :
    readingOf optional ls = meaningOf optional ls := by
  rw [readingOf, meaningOf, List.flatMap_congr fun l hl => logicalLines_eq_declarations (h l hl)]

theorem fieldsBefore_append (as bs : List Line) :
    fieldsBefore (as ++ bs) = if .relationMark ∈ as then fieldsBefore as else fieldsBefore as ++ fieldsBefore bs := by
  induction as with
  | nil => rfl
  | cons a as ih =>
    by_cases ha : a = .relationMark
    · simp [fieldsBefore, ha]
    · have head (ls : List Line) : fieldsBefore (a :: ls) = a.field?.toList ++ fieldsBefore ls := by
        rw [fieldsBefore, fieldsBefore, List.takeWhile_cons_of_pos (by simpa using ha)]
        cases hf : a.field? <;> simp [hf]
      rw [List.cons_append, head, head, ih]
      by_cases hm : Line.relationMark ∈ as <;> simp [hm, Ne.symm ha]

theorem fieldsBefore_append_iff (as bs cs : List Line) :
    fieldsBefore (as ++ bs) = fieldsBefore (as ++ cs) ↔ .relationMark ∈ as ∨ fieldsBefore bs = fieldsBefore cs := by
  rw [fieldsBefore_append, fieldsBefore_append]
  by_cases hm : Line.relationMark ∈ as <;> simp [hm]

theorem fields_modelOfBody (entity : Text) (optional : List Text) (body : Text) :
    (modelOfBody entity optional body).fields = fieldsBefore (readingOf optional (lines body)) := by
  have numbered : (numberedLines body).map (·.2) = (lines body).flatMap logicalLines := by
    rw [numberedLines, List.map_flatMap]
    simp only [List.map_map]
    conv_rhs => rw [← List.zipIdx_map_fst 1 (lines body), List.flatMap_map]
    simp [Function.comp_def]
  have read : (readLines optional body).map (·.2) = readingOf optional (lines body) := by
    rw [readLines, readingOf, ← numbered, List.map_map, List.map_map]
    rfl
  rw [← read, fieldsBefore, List.takeWhile_map, List.filterMap_map]
  rfl

/-- A schema that holds a block: no header of the entity starts a line before it, and its lines are comments and
declarations, where the closing brace follows declarations. -/
structure BlockSource (e : Identifier) where
  before : List Text
  indent : Text
  gap : Text
  space : Text
  body : List Text
  last : Text
  rest : Text
  noHeader : ∀ l ∈ before, '\n' ∉ l ∧ afterHeader? e.name l = none
  gaps : ∀ c ∈ indent ++ (gap ++ space), isGap c = true
  gap_ne_nil : gap ≠ []
  oneLine : ∀ l ∈ body ++ [last], '\n' ∉ l
  body_lines : ∀ l ∈ body, IsComment l ∨ IsDeclaring l
  last_line : IsDeclaring last

variable {e : Identifier}

namespace BlockSource

/-- What follows the opening brace. -/
def inside (b : BlockSource e) : Text := ended b.body ++ (b.last ++ '\x7d' :: b.rest)

def text (b : BlockSource e) : Text :=
  ended b.before ++ (b.indent ++ ("model".toList ++ (b.gap ++ (e.name ++ (b.space ++ '\x7b' :: b.inside)))))

/-- The lines from the opening brace to the closing one. -/
def contents (b : BlockSource e) : List Text := b.body ++ [b.last]

theorem isComment_or_isDeclaring (b : BlockSource e) : ∀ l ∈ b.contents, IsComment l ∨ IsDeclaring l := by
  intro l hl
  rcases List.mem_append.1 hl with hbody | hlast
  · exact b.body_lines l hbody
  · rw [List.mem_singleton.1 hlast]
    exact Or.inr b.last_line

end BlockSource

theorem not_mem_name (e : Identifier) : '\n' ∉ e.name := fun h =>
  absurd (List.all_eq_true.1 e.word '\n' h) (by decide)

theorem starts_name (e : Identifier) : ∃ c r, e.name = c :: r ∧ isGap c = false := by
  have starts := e.starts
  cases hn : e.name with
  | nil => simp [hn] at starts
  | cons c r =>
    refine ⟨c, r, rfl, ?_⟩
    by_contra hgap
    simp only [isGap, Bool.not_eq_false, Bool.or_eq_true, decide_eq_true_eq] at hgap
    have letter : Naming.isLetter c = true := by simpa [hn] using starts
    rcases hgap with rfl | rfl
    · exact absurd letter (by decide)
    · exact absurd letter (by decide)

theorem blockFrom?_of_here {entity t body : Text} (h : blockHere? entity t = some body) :
    blockFrom? entity true t = some body := by
  cases t with
  | nil => simp [blockHere?, afterHeader?, List.isPrefixOf?] at h
  | cons c r => rw [blockFrom?, if_pos rfl, h, Option.some_or]

theorem block?_text (b : BlockSource e) {x y : Text} (h : b.inside = x ++ '\x7d' :: y) (hx : '\x7d' ∉ x) :
    block? b.text e.name = some x := by
  have hindent : ∀ c ∈ b.indent, isGap c = true := fun c hc => b.gaps c (by simp [hc])
  have hgap : ∀ c ∈ b.gap, isGap c = true := fun c hc => b.gaps c (by simp [hc])
  have hspace : ∀ c ∈ b.space, isGap c = true := fun c hc => b.gaps c (by simp [hc])
  have header := afterHeader?_header (starts_name e) hindent hgap b.gap_ne_nil hspace b.inside
  rw [block?, BlockSource.text, blockFrom?_lines (not_mem_name e) b.noHeader]
  refine blockFrom?_of_here ?_
  rw [blockHere?, header, h]
  simp [Text.cut?_single hx]

/-- What is left of a line before its first closing brace. -/
def beforeBrace (l : Text) : Text := l.takeWhile (· ≠ '\x7d')

theorem not_mem_beforeBrace (l : Text) : '\x7d' ∉ beforeBrace l := fun h =>
  absurd (List.mem_takeWhile_imp h) (by simp)

theorem exists_eq_beforeBrace {l : Text} (h : '\x7d' ∈ l) : ∃ y, l = beforeBrace l ++ '\x7d' :: y := by
  obtain ⟨x, y, rfl, hx⟩ := List.eq_append_cons_of_mem h
  refine ⟨y, ?_⟩
  have cut : beforeBrace (x ++ '\x7d' :: y) = x := by
    rw [beforeBrace, List.takeWhile_append_of_pos fun c hc => by simpa using ne_of_mem_of_not_mem hc hx]
    simp
  rw [cut]

/-- The fields that lines declare before the relation mark. -/
def declaredFields (optional ls : List Text) : List Field := fieldsBefore (meaningOf optional ls)

/-- No field is lost at the first closing brace within lines: the relation mark stands before it, or its line, cut
there, has the fields of that line and all lines after it. -/
def IsIntact (optional ls : List Text) : Prop :=
  match Text.firstWith? ['\x7d'] ls with
  | none => True
  | some (us, l, vs) => .relationMark ∈ meaningOf optional us ∨
      fieldsBefore (readingOf optional [beforeBrace l]) = declaredFields optional (l :: vs)

instance (optional ls : List Text) : Decidable (IsIntact optional ls) := by
  unfold IsIntact
  split
  · infer_instance
  · infer_instance

/-- The block is read up to the first closing brace within its lines; without one, all its lines are read. -/
theorem exists_block (b : BlockSource e) : ∃ x, block? b.text e.name = some x ∧
    lines x = match Text.firstWith? ['\x7d'] b.contents with
      | none => b.contents
      | some (us, l, _) => us ++ [beforeBrace l] := by
  have noFeed : ∀ l ∈ b.contents, '\n' ∉ l := b.oneLine
  have inContents : b.last ∈ b.contents := List.mem_append_right _ List.mem_cons_self
  cases h : Text.firstWith? ['\x7d'] b.contents with
  | none =>
    have noBrace : ∀ l ∈ b.contents, '\x7d' ∉ l := fun l hl hm =>
      Text.firstWith?_eq_none_iff.1 h l hl ((List.singleton_infix_iff _ _).2 hm)
    refine ⟨ended b.body ++ b.last, block?_text b (List.append_assoc _ _ _).symm ?_, ?_⟩
    · intro hm
      rcases List.mem_append.1 hm with hbody | hlast
      · obtain ⟨l, hl, hc⟩ := List.mem_flatMap.1 hbody
        exact noBrace l (List.mem_append_left _ hl) (by simpa using hc)
      · exact noBrace b.last inContents hlast
    · rw [Text.lines_ended_append fun u hu => noFeed u (List.mem_append_left _ hu), lines,
        Text.splitAt_of_not_mem (noFeed b.last inContents)]
      rfl
  | some p =>
    obtain ⟨us, l, vs⟩ := p
    obtain ⟨hcontents, hus, hl⟩ := Text.firstWith?_eq_some_iff.1 h
    obtain ⟨y, hy⟩ := exists_eq_beforeBrace ((List.singleton_infix_iff _ _).1 hl)
    have hinside : b.inside = (ended us ++ beforeBrace l) ++ '\x7d' :: (y ++ (Text.led vs ++ '\x7d' :: b.rest)) := by
      rw [BlockSource.inside, ← List.append_assoc, Text.ended_append_eq_between hcontents, Text.between]
      conv_lhs => rw [hy]
      simp
    have inLines : ∀ u ∈ us ++ l :: vs, '\n' ∉ u := fun u hu => noFeed u (hcontents ▸ hu)
    refine ⟨ended us ++ beforeBrace l, block?_text b hinside ?_, ?_⟩
    · intro hm
      rcases List.mem_append.1 hm with hmus | hml
      · obtain ⟨u, hu, hc⟩ := List.mem_flatMap.1 hmus
        exact hus u hu ((List.singleton_infix_iff _ _).2 (by simpa using hc))
      · exact not_mem_beforeBrace l hml
    · have cut : '\n' ∉ beforeBrace l := fun hm => inLines l (by simp) ((List.takeWhile_prefix _).subset hm)
      rw [Text.lines_ended_append fun u hu => inLines u (List.mem_append_left _ hu), lines, Text.splitAt_of_not_mem cut]

/-- The model of a block has the fields that the block declares exactly when none is lost at a closing brace. -/
theorem model?_fields_eq_declared_iff (b : BlockSource e) (optional : List Text) :
    ∃ m, model? b.text e.name optional = some m ∧ (m.fields = declaredFields optional b.contents ↔ IsIntact optional b.contents) := by
  obtain ⟨x, hblock, hlines⟩ := exists_block b
  refine ⟨modelOfBody e.name optional x, by rw [model?, hblock, Option.map_some], ?_⟩
  rw [fields_modelOfBody, hlines, IsIntact, declaredFields]
  cases h : Text.firstWith? ['\x7d'] b.contents with
  | none => simp [readingOf_eq_meaningOf b.isComment_or_isDeclaring]
  | some p =>
    obtain ⟨us, l, vs⟩ := p
    obtain ⟨hcontents, -⟩ := Text.firstWith?_eq_some_iff.1 h
    have hus : ∀ u ∈ us, IsComment u ∨ IsDeclaring u := fun u hu =>
      b.isComment_or_isDeclaring u (hcontents ▸ List.mem_append_left _ hu)
    simp only [hcontents, readingOf_append, meaningOf_append, readingOf_eq_meaningOf hus, declaredFields]
    exact fieldsBefore_append_iff _ _ _

/-- A block whose first field has a closing brace as its default value. -/
def bracedDefault : BlockSource ⟨"A".toList, by decide, by decide⟩ where
  before := []
  indent := []
  gap := [' ']
  space := [' ']
  body := [[], "  note String @default(\"\x7d\")".toList, "  count Int".toList]
  last := []
  rest := ['\n']
  noHeader := by decide
  gaps := List.all_eq_true.1 (by decide)
  gap_ne_nil := by decide
  oneLine := by decide
  body_lines := by
    simp only [List.forall_mem_cons, List.not_mem_nil, false_implies, implies_true, and_true]
    refine ⟨.inr ⟨?_, ?_, ?_⟩, .inr ⟨?_, ?_, ?_⟩, .inr ⟨?_, ?_, ?_⟩⟩ <;> decide
  last_line := ⟨by decide, by decide, by decide⟩

/-- The field after that one is lost, and nothing is said about it. -/
theorem model?_bracedDefault :
    bracedDefault.text = "model A \x7b\n  note String @default(\"\x7d\")\n  count Int\n\x7d\n".toList ∧
    (declaredFields optionalSystemFields bracedDefault.contents).map (·.name) = ["note".toList, "count".toList] ∧
    ∃ m, model? bracedDefault.text "A".toList optionalSystemFields = some m ∧
      m.fields.map (·.name) = ["note".toList] ∧ m.warnings = [] := by
  refine ⟨by decide +kernel, by decide +kernel, ?_⟩
  refine ⟨modelOfBody "A".toList optionalSystemFields "\n  note String @default(\"".toList, ?_, ?_, ?_⟩
  · decide +kernel
  · decide +kernel
  · decide +kernel

end EntityScaffold.Schema
