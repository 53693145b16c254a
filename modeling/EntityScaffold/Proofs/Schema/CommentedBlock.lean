import EntityScaffold.Proofs.Schema.TrailingComments

/-
Blocks whose lines have comments at their ends, against the same blocks without. Both are read up to the same closing brace
and the same relation mark.
-/

namespace EntityScaffold.Schema

open Text (lines ended)

variable {entity : Text}

/-- What is read of lines with their comments, against what is read of them without: the same just where each comment before
the relation mark is harmless. -/
theorem exceeds_lines (optional : List Text) (cs : List CommentedLine) (rest : List Text) :
    Exceeds optional (own ((cs.map (·.text false)).flatMap statementsOf ++ rest))
        (own ((cs.map (·.text true)).flatMap statementsOf ++ rest)) ∧
      (Same optional (own ((cs.map (·.text false)).flatMap statementsOf ++ rest))
          (own ((cs.map (·.text true)).flatMap statementsOf ++ rest)) ↔
        ∀ c ∈ cs.takeWhile (·.IsUnmarked), c.IsHarmless optional) := by
  induction cs with
  | nil => exact ⟨.refl optional _, iff_of_true ⟨rfl, rfl⟩ (by simp)⟩
  | cons c cs ih =>
    simp only [List.map_cons, List.flatMap_cons, List.append_assoc, CommentedLine.text_false] at ih ⊢
    by_cases unmarked : c.IsUnmarked
    · obtain ⟨exceeds, same⟩ := CommentedLine.exceeds_text optional unmarked
      rw [own_append unmarked, own_append unmarked.text]
      refine ⟨exceeds.append ih.1, ?_⟩
      rw [same_append_iff exceeds ih.1, same, ih.2, List.takeWhile_cons_of_pos (by simpa using unmarked),
        List.forall_mem_cons]
    · have mark : ∃ s ∈ statementsOf c.line, IsMark s := by
        simpa [CommentedLine.IsUnmarked] using unmarked
      have markToo := CommentedLine.exists_mark_text_iff.2 mark
      rw [own_append_of_isMark mark, own_append_of_isMark markToo, CommentedLine.own_text_of_mark mark,
        List.takeWhile_cons_of_neg (by simpa using unmarked)]
      exact ⟨.refl optional _, iff_of_true ⟨rfl, rfl⟩ (by simp)⟩

/-- A block of an entity, after lines of which none is its header. The first line of its body is what follows the opening
brace; the last one ends with the closing brace. -/
structure CommentedBlock (entity : Text) where
  before : List Text
  header : Header
  body : List CommentedLine
  closing : Text
  noHeader : ∀ l ∈ before, '\n' ∉ l ∧ afterHeader? entity l = none
  declares : header.Declares entity
  closingLine : '\n' ∉ closing

namespace CommentedLine

variable {c : CommentedLine} {withComment : Bool}

theorem oneLine_text (c : CommentedLine) (withComment : Bool) : '\n' ∉ c.text withComment := by
  have line := c.oneLine
  cases hc : c.comment with
  | none => simp [text, hc, line]
  | some t => cases withComment <;> simp [text, hc, line, (c.trailing t hc).oneLine]

theorem not_mem_text (h : '\x7d' ∉ c.line) (withComment : Bool) : '\x7d' ∉ c.text withComment := by
  cases hc : c.comment with
  | none => simp [text, hc, h]
  | some t => cases withComment <;> simp [text, hc, h, (c.trailing t hc).noClosing]

theorem exists_text_eq (c : CommentedLine) (withComment : Bool) : ∃ z, c.text withComment = c.line ++ z := by
  rw [text]
  cases c.comment with
  | none => exact ⟨[], (List.append_nil c.line).symm⟩
  | some t => exact ⟨_, rfl⟩

end CommentedLine

/-- The line that holds the first closing brace. -/
def closingLineOf : List CommentedLine → Text → Text
  | [], closing => closing
  | c :: cs, closing => if '\x7d' ∈ c.line then c.line else closingLineOf cs closing

namespace CommentedBlock

/-- The text of the block and whatever follows it, with comments or without. -/
def source (b : CommentedBlock entity) (withComments : Bool) (rest : Text) : Text :=
  ended b.before ++
    (b.header.line ++ (ended (b.body.map (·.text withComments)) ++ (b.closing ++ '\x7d' :: rest)))

/-- The lines that are read whole: those before the first closing brace. -/
def whole (b : CommentedBlock entity) : List CommentedLine := b.body.takeWhile fun c => '\x7d' ∉ c.line

/-- The lines of which the comments are read: those before the first closing brace and before the relation mark. -/
def read (b : CommentedBlock entity) : List CommentedLine := b.whole.takeWhile (·.IsUnmarked)

end CommentedBlock

theorem exists_append_closing (l rest : Text) : ∃ y, l ++ '\x7d' :: rest = beforeBrace l ++ '\x7d' :: y := by
  by_cases h : '\x7d' ∈ l
  · obtain ⟨y, hy⟩ := exists_eq_beforeBrace h
    refine ⟨y ++ '\x7d' :: rest, ?_⟩
    calc l ++ '\x7d' :: rest = (beforeBrace l ++ '\x7d' :: y) ++ '\x7d' :: rest := by rw [← hy]
      _ = beforeBrace l ++ '\x7d' :: (y ++ '\x7d' :: rest) := by simp
  · have all : beforeBrace l = l := List.takeWhile_eq_self_iff.2 fun c hc => by simpa using ne_of_mem_of_not_mem hc h
    exact ⟨rest, by rw [all]⟩

theorem exists_ended_append (withComments : Bool) (cs : List CommentedLine) (closing rest : Text) :
    ∃ y, ended (cs.map (·.text withComments)) ++ (closing ++ '\x7d' :: rest) =
      (ended ((cs.takeWhile fun c => '\x7d' ∉ c.line).map (·.text withComments)) ++
        beforeBrace (closingLineOf cs closing)) ++ '\x7d' :: y := by
  induction cs with
  | nil => simpa [closingLineOf] using exists_append_closing closing rest
  | cons c cs ih =>
    by_cases h : '\x7d' ∈ c.line
    · obtain ⟨z, hz⟩ := c.exists_text_eq withComments
      obtain ⟨y, hy⟩ := exists_eq_beforeBrace h
      refine ⟨y ++ (z ++ '\n' :: (ended (cs.map (·.text withComments)) ++ (closing ++ '\x7d' :: rest))), ?_⟩
      rw [closingLineOf, if_pos h, List.takeWhile_cons_of_neg (by simpa using h), List.map_cons, Text.ended_cons, hz]
      calc _ = c.line ++ (z ++ '\n' :: (ended (cs.map (·.text withComments)) ++ (closing ++ '\x7d' :: rest))) := by simp
        _ = (beforeBrace c.line ++ '\x7d' :: y) ++
            (z ++ '\n' :: (ended (cs.map (·.text withComments)) ++ (closing ++ '\x7d' :: rest))) := by rw [← hy]
        _ = _ := by simp
    · obtain ⟨y, hy⟩ := ih
      refine ⟨y, ?_⟩
      rw [closingLineOf, if_neg h, List.takeWhile_cons_of_pos (by simpa using h), List.map_cons, List.map_cons,
        Text.ended_cons, Text.ended_cons, List.append_assoc, List.cons_append, hy]
      simp

namespace CommentedBlock

variable (b : CommentedBlock entity) (withComments : Bool)

/-- The body that is read of the block, with comments or without. -/
def inside : Text := ended (b.whole.map (·.text withComments)) ++ beforeBrace (closingLineOf b.body b.closing)

theorem block?_source (rest : Text) : block? (b.source withComments rest) entity = some (b.inside withComments) := by
  have oneLine : '\n' ∉ entity := b.declares.2 ▸ b.header.name_word.oneLine
  obtain ⟨y, hy⟩ : ∃ y, ended (b.body.map (·.text withComments)) ++ (b.closing ++ '\x7d' :: rest) =
      b.inside withComments ++ '\x7d' :: y := exists_ended_append withComments b.body b.closing rest
  have noClosing : '\x7d' ∉ b.inside withComments := by
    have ends : '\x7d' ∉ ended (b.whole.map (·.text withComments)) := by
      intro h
      obtain ⟨l, hl, hc⟩ := List.mem_flatMap.1 h
      obtain ⟨c, hmem, rfl⟩ := List.mem_map.1 hl
      have plain : '\x7d' ∉ c.line := by simpa using List.mem_takeWhile_imp hmem
      exact CommentedLine.not_mem_text plain withComments (by simpa using hc)
    simp [inside, ends, not_mem_beforeBrace]
  rw [block?, source, blockFrom?_lines oneLine b.noHeader]
  refine blockFrom?_of_here ?_
  rw [blockHere?, b.header.afterHeader?_line_of_declares b.declares, hy]
  simp only [Text.cut?_single noClosing, Option.map_some]

theorem lines_inside : lines (b.inside withComments) =
    b.whole.map (·.text withComments) ++ [beforeBrace (closingLineOf b.body b.closing)] := by
  have closed (cs : List CommentedLine) : '\n' ∉ closingLineOf cs b.closing := by
    induction cs with
    | nil => exact b.closingLine
    | cons c cs ih =>
      rw [closingLineOf]
      split
      · exact c.oneLine
      · exact ih
  have last : '\n' ∉ beforeBrace (closingLineOf b.body b.closing) := fun h =>
    closed b.body ((List.takeWhile_prefix _).subset h)
  have body : ∀ l ∈ b.whole.map (·.text withComments), '\n' ∉ l := by
    intro l hl
    obtain ⟨c, -, rfl⟩ := List.mem_map.1 hl
    exact c.oneLine_text withComments
  rw [inside, Text.lines_ended_append body, lines, Text.splitAt_of_not_mem last]

/-- The comments leave the fields and the number of warnings just where each that is read is harmless. -/
theorem same_model_iff (optional : List Text) :
    (modelOfBody entity optional (b.inside true)).fields = (modelOfBody entity optional (b.inside false)).fields ∧
      (modelOfBody entity optional (b.inside true)).warnings.length =
        (modelOfBody entity optional (b.inside false)).warnings.length ↔
      ∀ c ∈ b.read, c.IsHarmless optional := by
  rw [fields_eq_given, fields_eq_given, length_warnings_eq_lost, length_warnings_eq_lost, lines_inside, lines_inside,
    List.flatMap_append, List.flatMap_append]
  exact (exceeds_lines optional b.whole _).2

end CommentedBlock

end EntityScaffold.Schema
