import EntityScaffold.Proofs.Schema.Statements

/-
Schemas that are sequences of blocks, one brace at each end and none within. The model of an entity is read from the first
block that declares it, and from no other line of the schema.
-/

namespace EntityScaffold.Schema

open Text (lines ended led between IsGap isBlank strip)

variable {entity : Text} {optional : List Text} {l : Text}

theorem ownOf_concat {p : Text × Nat} (h : ¬ IsOwn p.1) (ls : List (Text × Nat)) : ownOf (ls ++ [p]) = ownOf ls := by
  induction ls with
  | nil =>
    rw [List.nil_append, ownOf_cons, if_neg h]
    exact ite_self []
  | cons q ls ih => rw [List.cons_append, ownOf_cons, ownOf_cons, ih]

theorem ownOf_cons_of_gap {p : Text × Nat} (h : IsGap p.1) (ls : List (Text × Nat)) : ownOf (p :: ls) = ownOf ls := by
  rw [ownOf_cons, if_neg fun mark => not_isComment_of_gap h mark.1, if_neg fun own => own.notBlank h]

/-- A line that holds nothing but what a block says: no brace, and no semicolon that parts it. -/
@[mk_iff]
structure IsBodyLine (l : Text) : Prop where
  oneLine : '\n' ∉ l
  noOpening : '\x7b' ∉ l
  noClosing : '\x7d' ∉ l
  noSemicolon : ';' ∉ l

instance (l : Text) : Decidable (IsBodyLine l) := decidable_of_iff' _ (isBodyLine_iff l)

/-- A line that opens no block. -/
structure IsOuterLine (l : Text) : Prop where
  oneLine : '\n' ∉ l
  noOpening : '\x7b' ∉ l

/-- A block: lines before it, its header, the lines of its body and its closing line. -/
structure Block where
  before : List Text
  header : Header
  tail : Text
  body : List Text
  closeIndent : Text
  closeTail : Text
  before_lines : ∀ l ∈ before, IsOuterLine l
  body_lines : ∀ l ∈ body, IsBodyLine l
  gaps : IsGap (tail ++ (closeIndent ++ closeTail))
  oneLine : '\n' ∉ tail ++ (closeIndent ++ closeTail)

namespace Block

variable (b : Block)

def headerLine : Text := b.header.line ++ b.tail

def closeLine : Text := b.closeIndent ++ '\x7d' :: b.closeTail

def lines : List Text := b.before ++ b.headerLine :: (b.body ++ [b.closeLine])

/-- The model of the entity that the block declares; its first body line is the second of the block. -/
def model (entity : Text) (optional : List Text) : Model := modelOf entity optional (b.body.zipIdx 2)

theorem isBodyLine_tail : IsBodyLine b.tail ∧ IsBodyLine b.closeIndent := by
  have blank {t : Text} (ht : t ⊆ b.tail ++ (b.closeIndent ++ b.closeTail)) : IsBodyLine t := by
    have gap : IsGap t := fun c hc => b.gaps c (ht hc)
    refine ⟨fun h => b.oneLine (ht h), ?_, ?_, ?_⟩
    · exact fun h => absurd (gap _ h) (by decide)
    · exact fun h => absurd (gap _ h) (by decide)
    · exact fun h => absurd (gap _ h) (by decide)
  constructor
  · apply blank
    intro c hc
    simp [hc]
  · apply blank
    intro c hc
    simp [hc]

theorem oneLine_of_mem : ∀ l ∈ b.lines, '\n' ∉ l := by
  have blank := b.oneLine
  simp only [List.mem_append, not_or] at blank
  obtain ⟨htail, hindent, hclose⟩ := blank
  intro l hl
  simp only [lines, List.mem_append, List.mem_cons, List.not_mem_nil, or_false] at hl
  rcases hl with hl | rfl | hl | rfl
  · exact (b.before_lines l hl).oneLine
  · simp [headerLine, b.header.oneLine, htail]
  · exact (b.body_lines l hl).oneLine
  · simp [closeLine, hindent, hclose]

end Block

/-- A schema: blocks, and lines after the last of them. -/
structure Source where
  blocks : List Block
  after : List Text
  after_lines : ∀ l ∈ after, IsOuterLine l

namespace Source

def lines (s : Source) : List Text := s.blocks.flatMap Block.lines ++ s.after

def text (s : Source) : Text := ['\n'].intercalate s.lines

end Source

theorem afterHeader?_of_not_mem (h : '\x7b' ∉ l) : afterHeader? entity l = none := by
  cases hl : afterHeader? entity l with
  | none => rfl
  | some body =>
    obtain ⟨indent, gap, space, -, -, rfl⟩ := afterHeader?_eq_some hl
    simp at h

/-- What names an entity in a header: a text of one line, without gaps and opening braces. -/
structure IsEntityName (entity : Text) : Prop where
  noGap : ∀ c ∈ entity, isGap c = false
  oneLine : '\n' ∉ entity
  noBrace : '\x7b' ∉ entity

theorem Block.afterHeader?_of_mem (named : IsEntityName entity) (b : Block) (other : ¬ b.header.Declares entity) :
    ∀ l ∈ b.lines, '\n' ∉ l ∧ afterHeader? entity l = none := by
  intro l hl
  refine ⟨b.oneLine_of_mem l hl, ?_⟩
  simp only [lines, List.mem_append, List.mem_cons, List.not_mem_nil, or_false] at hl
  rcases hl with hl | rfl | hl | rfl
  · exact afterHeader?_of_not_mem (b.before_lines l hl).noOpening
  · cases found : afterHeader? entity b.headerLine with
    | none => rfl
    | some body => exact absurd (b.header.declares_of_afterHeader? named.noGap named.noBrace found) other
  · exact afterHeader?_of_not_mem (b.body_lines l hl).noOpening
  · refine afterHeader?_of_not_mem ?_
    have tail : '\x7b' ∉ b.closeTail := fun h =>
      absurd (b.gaps _ (List.mem_append_right _ (List.mem_append_right _ h))) (by decide)
    simp [closeLine, b.isBodyLine_tail.2.noOpening, tail]

theorem blockFrom?_intercalate (named : IsEntityName entity) {ls : List Text}
    (h : ∀ l ∈ ls, '\n' ∉ l ∧ afterHeader? entity l = none) : blockFrom? entity true (['\n'].intercalate ls) = none := by
  rcases List.eq_nil_or_concat ls with rfl | ⟨ls, last, rfl⟩
  · rfl
  · obtain ⟨hlast, none⟩ := h last (by simp)
    have joined : ['\n'].intercalate (ls ++ [last]) = ended ls ++ last := by
      rw [Text.intercalate_eq_between, between, Text.led_nil, List.append_nil]
    rw [List.concat_eq_append, joined, blockFrom?_lines named.oneLine fun m hm => h m (by simp [hm]),
      blockFrom?_last hlast none]

theorem Source.block?_eq_none (named : IsEntityName entity) (s : Source)
    (none : ∀ b ∈ s.blocks, ¬ b.header.Declares entity) : block? s.text entity = .none := by
  refine blockFrom?_intercalate named ?_
  intro l hl
  rcases List.mem_append.1 hl with hl | hl
  · obtain ⟨b, hb, hl⟩ := List.mem_flatMap.1 hl
    exact b.afterHeader?_of_mem named (none b hb) l hl
  · exact ⟨(s.after_lines l hl).oneLine, afterHeader?_of_not_mem (s.after_lines l hl).noOpening⟩

/-- The first block that declares the entity is found, and ends at its own closing line. -/
theorem Source.block?_eq_some (named : IsEntityName entity) {s : Source} {as bs : List Block} {b : Block}
    (blocks : s.blocks = as ++ b :: bs) (others : ∀ a ∈ as, ¬ a.header.Declares entity)
    (declares : b.header.Declares entity) :
    block? s.text entity = some (b.tail ++ led (b.body ++ [b.closeIndent])) := by
  let rest := bs.flatMap Block.lines ++ s.after
  have whole : s.lines = (as.flatMap Block.lines ++ b.before) ++ b.headerLine :: ((b.body ++ [b.closeLine]) ++ rest) := by
    simp [Source.lines, blocks, Block.lines, rest]
  have before : ∀ l ∈ as.flatMap Block.lines ++ b.before, '\n' ∉ l ∧ afterHeader? entity l = none := by
    intro l hl
    rcases List.mem_append.1 hl with hl | hl
    · obtain ⟨a, ha, hl⟩ := List.mem_flatMap.1 hl
      exact a.afterHeader?_of_mem named (others a ha) l hl
    · exact ⟨(b.before_lines l hl).oneLine, afterHeader?_of_not_mem (b.before_lines l hl).noOpening⟩
  have noClosing : '\x7d' ∉ b.tail ++ led (b.body ++ [b.closeIndent]) := by
    have bodies : '\x7d' ∉ led (b.body ++ [b.closeIndent]) := by
      intro h
      obtain ⟨l, hl, hc⟩ := List.mem_flatMap.1 h
      have line : IsBodyLine l := by
        rcases List.mem_append.1 hl with hl | hl
        · exact b.body_lines l hl
        · rw [List.mem_singleton.1 hl]
          exact b.isBodyLine_tail.2
      exact line.noClosing (by simpa using hc)
    simp [b.isBodyLine_tail.1.noClosing, bodies]
  have closed : b.tail ++ led ((b.body ++ [b.closeLine]) ++ rest) =
      (b.tail ++ led (b.body ++ [b.closeIndent])) ++ '\x7d' :: (b.closeTail ++ led rest) := by
    simp [led, Block.closeLine]
  have here : blockHere? entity (b.headerLine ++ led ((b.body ++ [b.closeLine]) ++ rest)) =
      some (b.tail ++ led (b.body ++ [b.closeIndent])) := by
    rw [blockHere?, Block.headerLine, List.append_assoc, b.header.afterHeader?_line_of_declares declares, closed]
    simp only [Text.cut?_single noClosing, Option.map_some]
  rw [block?, Source.text, whole, Text.intercalate_eq_between, between, List.append_assoc,
    blockFrom?_lines named.oneLine before]
  exact blockFrom?_of_here here

theorem Block.modelOfBody_eq (b : Block) (entity : Text) (optional : List Text) :
    modelOfBody entity optional (b.tail ++ led (b.body ++ [b.closeIndent])) = b.model entity optional := by
  have inside : ∀ l ∈ b.body ++ [b.closeIndent], IsBodyLine l := by
    intro l hl
    rcases List.mem_append.1 hl with hl | hl
    · exact b.body_lines l hl
    · rw [List.mem_singleton.1 hl]
      exact b.isBodyLine_tail.2
  have whole : Text.lines (b.tail ++ led (b.body ++ [b.closeIndent])) = b.tail :: (b.body ++ [b.closeIndent]) := by
    rw [Text.lines_append_led fun l hl => (inside l hl).oneLine, Text.lines,
      Text.splitAt_of_not_mem b.isBodyLine_tail.1.oneLine, List.singleton_append]
  have single : ∀ l ∈ Text.lines (b.tail ++ led (b.body ++ [b.closeIndent])), ';' ∉ l := by
    rw [whole]
    exact List.forall_mem_cons.2 ⟨b.isBodyLine_tail.1.noSemicolon, fun l hl => (inside l hl).noSemicolon⟩
  have blank : IsGap b.tail ∧ IsGap b.closeIndent :=
    ⟨fun c hc => b.gaps c (by simp [hc]), fun c hc => b.gaps c (by simp [hc])⟩
  have own : ownOf ((b.tail :: (b.body ++ [b.closeIndent])).zipIdx 1) = ownOf (b.body.zipIdx 2) := by
    rw [List.zipIdx_cons, ownOf_cons_of_gap blank.1, List.zipIdx_append, List.zipIdx_singleton,
      ownOf_concat fun own => own.notBlank blank.2]
  rw [Schema.modelOfBody_eq, numberedStatements_of_not_mem single, whole, Block.model, modelOf, modelOf, own]

end EntityScaffold.Schema
