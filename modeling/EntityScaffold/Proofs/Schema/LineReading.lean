import EntityScaffold.Proofs.Schema.Extraction
import EntityScaffold.Proofs.Text.Blank
import EntityScaffold.Proofs.Text.LetterCase
import Mathlib.Tactic.MkIffOfInductiveProp

/-
What each line of a block is read as. Before the relation mark, a line that is neither blank nor a comment nor an
attribute of the block gives a field or a warning, and no other line gives anything.
-/

namespace EntityScaffold.Schema

open Text (IsGap isBlank strip)

variable {entity : Text} {optional : List Text} {l : Text}

instance (t : Text) : Decidable (IsGap t) := inferInstanceAs (Decidable (∀ c ∈ t, isBlank c = true))

/-- A comment line that holds the words of the relation mark, in any letter case. -/
def IsMark (l : Text) : Prop := IsComment l ∧ "relation starts".toList <:+: (strip l).map Char.toLower

instance (l : Text) : Decidable (IsMark l) := inferInstanceAs (Decidable (_ ∧ _))

/-- A line that has to be a field: neither blank nor a comment nor an attribute of the block. -/
@[mk_iff]
structure IsOwn (l : Text) : Prop where
  notBlank : ¬ IsGap l
  noComment : ¬ IsComment l
  noAttribute : ¬ "@@".toList <+: strip l

instance (l : Text) : Decidable (IsOwn l) := decidable_of_iff' _ (isOwn_iff l)

/-- What a line is read as. -/
inductive Reads (optional : List Text) (l : Text) : Line → Prop
  | mark (mark : IsMark l) : Reads optional l .relationMark
  | blank (gap : IsGap l) : Reads optional l .blank
  | comment (comment : IsComment l) (noMark : ¬ IsMark l) : Reads optional l .comment
  | mention (noComment : ¬ IsComment l) (marked : "@@".toList <+: strip l) : Reads optional l (.attribute (strip l))
  | field (own : IsOwn l) {f : Field} (read : Field.ofLine? optional l = some f) : Reads optional l (.field f)
  | malformed (own : IsOwn l) (unread : Field.ofLine? optional l = none) : Reads optional l (.malformed (strip l))

theorem not_isComment_of_gap (h : IsGap l) : ¬ IsComment l := by
  rw [IsComment, Text.strip_eq_nil_iff.2 h]
  decide

theorem Field.ofLine?_strip (optional : List Text) (l : Text) :
    Field.ofLine? optional (strip l) = Field.ofLine? optional l := by
  rw [Field.ofLine?, Field.ofLine?, Text.words_strip]

theorem isMark_iff (comment : IsComment l) :
    IsMark l ↔ Text.has (Text.lower (strip l)) "relation starts".toList = true := by
  have plain : Text.IsPlainNeedle "relation starts".toList := ⟨by decide, by decide⟩
  rw [Text.has_iff, plain.infix_lower_iff (by decide), IsMark, and_iff_right comment]

theorem reads_ofText (optional : List Text) (l : Text) : Reads optional l (Line.ofText optional (strip l)) := by
  rw [Line.ofText]
  split
  · next h =>
    exact .blank (Text.strip_eq_nil_iff.1 (List.isEmpty_iff.1 h))
  · next hblank =>
    have notBlank : ¬ IsGap l := fun gap => hblank (List.isEmpty_iff.2 (Text.strip_eq_nil_iff.2 gap))
    split
    · next h =>
      have comment : IsComment l := List.isPrefixOf_iff_prefix.1 h
      split
      · next hmark => exact .mark ((isMark_iff comment).2 hmark)
      · next hmark => exact .comment comment (mt (isMark_iff comment).1 hmark)
    · next h =>
      have noComment : ¬ IsComment l := fun comment => h (List.isPrefixOf_iff_prefix.2 comment)
      split
      · next hattribute => exact .mention noComment (List.isPrefixOf_iff_prefix.1 hattribute)
      · next hattribute =>
        have own : IsOwn l := ⟨notBlank, noComment, fun ha => hattribute (List.isPrefixOf_iff_prefix.2 ha)⟩
        rw [Field.ofLine?_strip]
        split
        · next read => exact .field own read
        · next unread => exact .malformed own unread

theorem ofText_eq_relationMark_iff : Line.ofText optional (strip l) = .relationMark ↔ IsMark l := by
  have reads := reads_ofText optional l
  generalize Line.ofText optional (strip l) = read at reads
  cases reads with
  | mark mark => simp [mark]
  | blank gap => simp [IsMark, not_isComment_of_gap gap]
  | comment _ noMark => simp [noMark]
  | mention noComment => simp [IsMark, noComment]
  | field own => simp [IsMark, own.noComment]
  | malformed own => simp [IsMark, own.noComment]

theorem field?_ofText : (Line.ofText optional (strip l)).field? = if IsOwn l then Field.ofLine? optional l else none := by
  have reads := reads_ofText optional l
  generalize Line.ofText optional (strip l) = read at reads
  cases reads with
  | mark mark => simp [Line.field?, isOwn_iff, mark.1]
  | blank gap => simp [Line.field?, isOwn_iff, gap]
  | comment comment => simp [Line.field?, isOwn_iff, comment]
  | mention _ marked =>
    rw [if_neg fun own => own.noAttribute marked]
    rfl
  | field own read => simp [Line.field?, own, read]
  | malformed own unread => simp [Line.field?, own, unread]

theorem warning?_ofText (number : Nat) : Line.warning? entity (number, Line.ofText optional (strip l)) =
    if IsOwn l ∧ Field.ofLine? optional l = none then some (malformedWarning entity number (strip l)) else none := by
  have reads := reads_ofText optional l
  generalize Line.ofText optional (strip l) = read at reads
  cases reads with
  | mark mark => simp [Line.warning?, isOwn_iff, mark.1]
  | blank gap => simp [Line.warning?, isOwn_iff, gap]
  | comment comment => simp [Line.warning?, isOwn_iff, comment]
  | mention _ marked =>
    rw [if_neg fun own => own.1.noAttribute marked]
    rfl
  | field own read => simp [Line.warning?, read]
  | malformed own unread => simp [Line.warning?, own, unread]

/-- The lines that have to be fields, with their numbers: those before the relation mark. -/
def ownOf (ls : List (Text × Nat)) : List (Text × Nat) :=
  (ls.takeWhile fun p => ¬ IsMark p.1).filter fun p => IsOwn p.1

theorem ownOf_cons (p : Text × Nat) (ls : List (Text × Nat)) :
    ownOf (p :: ls) = if IsMark p.1 then [] else if IsOwn p.1 then p :: ownOf ls else ownOf ls := by
  by_cases hmark : IsMark p.1
  · simp [ownOf, hmark]
  · by_cases hown : IsOwn p.1
    · simp [ownOf, hmark, hown]
    · simp [ownOf, hmark, hown]

theorem ownOf_append_of_isMark {p : Text × Nat} (mark : IsMark p.1) (us vs : List (Text × Nat)) :
    ownOf (us ++ p :: vs) = ownOf us := by
  induction us with
  | nil => rw [List.nil_append, ownOf_cons, if_pos mark, ownOf, List.takeWhile_nil, List.filter_nil]
  | cons q us ih => rw [List.cons_append, ownOf_cons, ownOf_cons, ih]

/-- The model that numbered lines declare. -/
def modelOf (entity : Text) (optional : List Text) (ls : List (Text × Nat)) : Model where
  entity := entity
  fields := (ownOf ls).filterMap fun p => Field.ofLine? optional p.1
  warnings := ((ownOf ls).filter fun p => (Field.ofLine? optional p.1).isNone).map fun p =>
    malformedWarning entity p.2 (strip p.1)

theorem length_modelOf (entity : Text) (optional : List Text) (ls : List (Text × Nat)) :
    (modelOf entity optional ls).fields.length + (modelOf entity optional ls).warnings.length = (ownOf ls).length := by
  simp only [modelOf, List.length_map]
  induction ownOf ls with
  | nil => rfl
  | cons p ps ih =>
    cases h : Field.ofLine? optional p.1 with
    | none =>
      simp only [List.filterMap_cons, List.filter_cons, h, Option.isNone_none, if_true, List.length_cons]
      omega
    | some f =>
      simp only [List.filterMap_cons, List.filter_cons, h, Option.isNone_some, Bool.false_eq_true, if_false,
        List.length_cons]
      omega

/-- Lines are read in order, up to the relation mark. -/
theorem model_of_lines (entity : Text) (optional : List Text) (ls : List (Text × Nat)) :
    (ownLines (ls.map fun p => (p.2, Line.ofText optional (strip p.1)))).filterMap (fun p => p.2.field?) =
        (modelOf entity optional ls).fields ∧
      (ownLines (ls.map fun p => (p.2, Line.ofText optional (strip p.1)))).filterMap (Line.warning? entity) =
        (modelOf entity optional ls).warnings := by
  induction ls with
  | nil => exact ⟨rfl, rfl⟩
  | cons p ls ih =>
    simp only [ownLines, modelOf] at ih
    by_cases hmark : IsMark p.1
    · have read : Line.ofText optional (strip p.1) = .relationMark := ofText_eq_relationMark_iff.2 hmark
      simp [ownLines, modelOf, ownOf_cons, read, hmark]
    · have read : Line.ofText optional (strip p.1) ≠ .relationMark := mt ofText_eq_relationMark_iff.1 hmark
      simp only [ownLines, modelOf, List.map_cons, List.takeWhile_cons, ne_eq, read, not_false_eq_true, decide_true,
        if_true, List.filterMap_cons, field?_ofText, warning?_ofText, ih, ownOf_cons, if_neg hmark]
      by_cases hown : IsOwn p.1
      · cases h : Field.ofLine? optional p.1 with
        | none => simp [hown, h]
        | some f => simp [hown, h]
      · simp [hown]

end EntityScaffold.Schema
