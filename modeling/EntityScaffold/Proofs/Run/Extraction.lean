import EntityScaffold.Proofs.Run.Registration
import EntityScaffold.Proofs.Schema.CommentedBlock
import EntityScaffold.Proofs.Schema.Layout
import EntityScaffold.Proofs.Schema.Sequence
import EntityScaffold.Run.Schema

/- The model that a run takes from a schema's text, in every world. -/

namespace EntityScaffold.Run

open Schema (Source Block CommentedBlock Header IsWord IsBodyLine IsEntityName IsMark modelOf ownOf Frame Spacing Declaration)

variable {schema entity : Text} {optional : List Text}

theorem run_extract (schema entity : Text) (optional : List Text) (w : World) :
    (World.run (extract schema entity optional) w).1 =
      match Schema.block? schema entity with
      | none => .error (.entityMissing entity)
      | some body =>
        if entity.isEmpty then .error (.recordInvalid [⟨[.key "entity_name".toList], .emptyText⟩])
        else .ok (Schema.modelOfBody entity optional body) := by
  rw [extract]
  cases Schema.block? schema entity with
  | none => rfl
  | some body =>
    obtain ⟨w', hnotes, -⟩ := run_notes (Schema.notesOfBody entity optional body) w
    simp only [run_bind_ok hnotes]
    split
    · rfl
    · rfl

/-- What is read of a schema that is a sequence of blocks: the model of the first block that declares the entity, or that
there is no such block. Each line of the block that has to be a field gives a field or a warning, and nothing from the
relation mark on is read. -/
theorem extract_of_blocks (s : Source) (named : IsEntityName entity) (optional : List Text) (w : World) :
    ((World.run (extract s.text entity optional) w).1 = .error (.entityMissing entity) ↔
      ∀ b ∈ s.blocks, ¬ b.header.Declares entity) ∧
    ∀ b, s.blocks.find? (fun b => b.header.Declares entity) = some b →
      (World.run (extract s.text entity optional) w).1 = .ok (b.model entity optional) ∧
      (b.model entity optional).fields.length + (b.model entity optional).warnings.length =
        (ownOf (b.body.zipIdx 2)).length ∧
      ∀ us mark vs, b.body = us ++ mark :: vs → IsMark mark →
        b.model entity optional = modelOf entity optional (us.zipIdx 2) := by
  have found (b : Block) (first : s.blocks.find? (fun b => b.header.Declares entity) = some b) :
      (World.run (extract s.text entity optional) w).1 = .ok (b.model entity optional) := by
    obtain ⟨declares, as, bs, blocks, others⟩ := List.find?_eq_some_iff_append.1 first
    have others' : ∀ a ∈ as, ¬ a.header.Declares entity := fun a ha => by simpa using others a ha
    have declared : b.header.Declares entity := of_decide_eq_true declares
    have nonempty : ¬ entity.isEmpty = true := by
      rw [List.isEmpty_iff, ← declared.2]
      exact b.header.name_word.ne_nil
    rw [run_extract, Source.block?_eq_some named blocks others' declared]
    simp only [if_neg nonempty, b.modelOfBody_eq]
  refine ⟨⟨?_, ?_⟩, ?_⟩
  · intro missing b hb declares
    cases first : s.blocks.find? (fun b => b.header.Declares entity) with
    | none => exact absurd (decide_eq_true declares) (List.find?_eq_none.1 first b hb)
    | some b => exact absurd ((found b first).symm.trans missing) (by simp)
  · intro none
    rw [run_extract, s.block?_eq_none named none]
  · intro b first
    refine ⟨found b first, Schema.length_modelOf entity optional (b.body.zipIdx 2), ?_⟩
    intro us mark vs body isMark
    rw [Block.model, body, List.zipIdx_append, List.zipIdx_cons, modelOf, modelOf, Schema.ownOf_append_of_isMark isMark]

/-- A block with comments at the ends of its lines has a model, and so has the block without them. Fields and number of
warnings are the same just where each comment is harmless that stands before the first closing brace and the relation mark. -/
theorem extract_of_commentedBlock (b : CommentedBlock entity) (optional : List Text) (rest rest' : Text) (w : World) :
    ∃ m m', (World.run (extract (b.source false rest) entity optional) w).1 = .ok m ∧
      (World.run (extract (b.source true rest') entity optional) w).1 = .ok m' ∧
      (m'.fields = m.fields ∧ m'.warnings.length = m.warnings.length ↔ ∀ c ∈ b.read, c.IsHarmless optional) := by
  have nonempty : ¬ entity.isEmpty = true := by
    rw [List.isEmpty_iff, ← b.declares.2]
    exact b.header.name_word.ne_nil
  refine ⟨_, _, ?_, ?_, b.same_model_iff optional⟩
  · rw [run_extract, b.block?_source]
    exact if_neg nonempty
  · rw [run_extract, b.block?_source]
    exact if_neg nonempty

/-- The layout of a block decides nothing: its declarations on one line with semicolons between them give the same fields as
one on each line, whatever spaces and tabs stand around them. -/
theorem extract_of_layouts (f g : Frame entity) (spacing spacing' : Nat → Spacing) (ds : List Declaration)
    (optional : List Text) (w : World) :
    ∃ m n, (World.run (extract (f.source (Schema.onOneLine spacing ds)) entity optional) w).1 = .ok m ∧
      (World.run (extract (g.source (Schema.onePerLine spacing' ds)) entity optional) w).1 = .ok n ∧
      m.fields = n.fields ∧ n.fields = Schema.fieldsOf optional ds := by
  have nonempty : ¬ entity.isEmpty = true := by
    rw [List.isEmpty_iff, ← f.declares.2]
    exact f.header.name_word.ne_nil
  obtain ⟨oneLine, fields⟩ := f.model_onOneLine optional spacing ds
  obtain ⟨perLine, fields'⟩ := g.model_onePerLine optional spacing' ds
  refine ⟨_, _, ?_, ?_, fields.trans fields'.symm, fields'⟩
  · rw [run_extract, oneLine]
    exact if_neg nonempty
  · rw [run_extract, perLine]
    exact if_neg nonempty

section Samples

theorem space_ne_nil : [' '] ≠ ([] : Text) := List.cons_ne_nil _ _

def spacedHeader (keyword name : Text) (words : IsWord keyword ∧ IsWord name) (noBrace : '\x7b' ∉ name) : Header where
  indent := []
  keyword := keyword
  gap := [' ']
  name := name
  space := [' ']
  gaps := by decide
  gap_ne_nil := space_ne_nil
  keyword_word := words.1
  name_word := words.2
  noBrace := noBrace

def sampleBlock (keyword name : Text) (body : List Text) (words : IsWord keyword ∧ IsWord name) (noBrace : '\x7b' ∉ name)
    (body_lines : ∀ l ∈ body, IsBodyLine l) : Block where
  before := [[]]
  header := spacedHeader keyword name words noBrace
  tail := []
  body := body
  closeIndent := []
  closeTail := []
  before_lines := List.forall_mem_singleton.2 ⟨by decide, by decide⟩
  body_lines := body_lines
  gaps := by decide
  oneLine := by decide

def widgetBlock : Block :=
  sampleBlock "model".toList "Widget".toList
    ["  id Int @id".toList, "  // as it is shown".toList, "\tname String? @unique".toList, "  orphan".toList,
      "  @@index([name])".toList, "  // Relation STARTS".toList, "  owner User".toList]
    ⟨⟨by decide, by decide, by decide⟩, ⟨by decide, by decide, by decide⟩⟩ (by decide)
    (by decide)

/-- A schema where other blocks have the entity's name without the keyword, or its name as a start. -/
def widgetSource : Source where
  blocks := [
    sampleBlock "enum".toList "Widget".toList [] ⟨⟨by decide, by decide, by decide⟩, ⟨by decide, by decide, by decide⟩⟩
      (by decide) (by decide),
    sampleBlock "model".toList "WidgetItem".toList []
      ⟨⟨by decide, by decide, by decide⟩, ⟨by decide, by decide, by decide⟩⟩ (by decide) (by decide),
    widgetBlock]
  after := [[]]
  after_lines := List.forall_mem_singleton.2 ⟨by decide, by decide⟩

theorem extract_of_blocks_widgetSource :
    IsEntityName "Widget".toList ∧
    (World.run (extract widgetSource.text "Widget".toList Schema.optionalSystemFields) { tree := .empty }).1 = .ok {
      entity := "Widget".toList
      fields := [
        { name := "id".toList, rawType := "Int".toList, isOptional := true },
        { name := "name".toList, rawType := "String".toList, isOptional := true, isUnique := true }]
      warnings := ["Skipped malformed line 5 in model Widget: 'orphan'".toList] } := by
  have named : IsEntityName "Widget".toList := ⟨by decide, by decide, by decide⟩
  have first : widgetSource.blocks.find? (fun b => b.header.Declares "Widget".toList) = some widgetBlock := rfl
  obtain ⟨read, -⟩ := (extract_of_blocks widgetSource named Schema.optionalSystemFields { tree := .empty }).2 _ first
  refine ⟨named, read.trans (congrArg Except.ok ?_)⟩
  decide +kernel

def rateDeclarations : List Declaration := [
  ⟨"code String @default(\"a;b\") @unique".toList, by decide, by decide, by decide, by decide, by decide⟩,
  ⟨"amount Int".toList, by decide, by decide, by decide, by decide, by decide⟩,
  ⟨"@@index([code])".toList, by decide, by decide, by decide, by decide, by decide⟩]

/-- A block without any lines before it, whose declarations start on the header's line or below it. -/
def rateFrame (blanks : List Text) (blank : blanks = [] ∨ blanks = [[]]) : Frame "Rate".toList where
  before := []
  header := spacedHeader "model".toList "Rate".toList
    ⟨⟨by decide, by decide, by decide⟩, ⟨by decide, by decide, by decide⟩⟩ (by decide)
  leading := blanks
  trailing := blanks
  rest := ['\n']
  noHeader := by simp
  declares := ⟨rfl, rfl⟩
  gaps := by rcases blank with rfl | rfl <;> decide

theorem extract_of_layouts_rates :
    ∃ m n, (World.run (extract
        "model Rate \x7b code String @default(\"a;b\") @unique; amount Int; @@index([code])\x7d\n".toList
        "Rate".toList []) { tree := .empty }).1 = .ok m ∧
      (World.run (extract
        "model Rate \x7b\n\tcode String @default(\"a;b\") @unique\n\tamount Int\n\t@@index([code])\n\x7d\n".toList
        "Rate".toList []) { tree := .empty }).1 = .ok n ∧
      m.fields = n.fields ∧
      n.fields = [
        { name := "code".toList, rawType := "String".toList, isUnique := true },
        { name := "amount".toList, rawType := "Int".toList }] := by
  have texts :
      (rateFrame [] (by decide)).source (Schema.onOneLine (fun _ => ⟨[' '], [], by decide⟩) rateDeclarations) =
        "model Rate \x7b code String @default(\"a;b\") @unique; amount Int; @@index([code])\x7d\n".toList ∧
      (rateFrame [[]] (by decide)).source (Schema.onePerLine (fun _ => ⟨['\t'], [], by decide⟩) rateDeclarations) =
        "model Rate \x7b\n\tcode String @default(\"a;b\") @unique\n\tamount Int\n\t@@index([code])\n\x7d\n".toList := by
    decide +kernel
  obtain ⟨m, n, oneLine, perLine, same, fields⟩ := extract_of_layouts (rateFrame [] (by decide))
    (rateFrame [[]] (by decide)) (fun _ => ⟨[' '], [], by decide⟩) (fun _ => ⟨['\t'], [], by decide⟩) rateDeclarations []
    { tree := .empty }
  rw [texts.1] at oneLine
  rw [texts.2] at perLine
  have declared : Schema.fieldsOf [] rateDeclarations = [
      { name := "code".toList, rawType := "String".toList, isUnique := true },
      { name := "amount".toList, rawType := "Int".toList }] := by decide +kernel
  exact ⟨m, n, oneLine, perLine, same, fields.trans declared⟩

/-- A block whose field has a comment with the word for unique fields. -/
def slugBlock : CommentedBlock "A".toList where
  before := []
  header := spacedHeader "model".toList "A".toList ⟨⟨by decide, by decide, by decide⟩, ⟨by decide, by decide, by decide⟩⟩
    (by decide)
  body := [
    { line := [], comment := none, oneLine := by decide, declares := by simp, trailing := by simp, marks := by simp },
    { line := "  slug String".toList
      comment := some "not @unique".toList
      oneLine := by decide
      declares := fun _ => ⟨by decide, by decide⟩
      trailing := by
        rintro t ⟨⟩
        exact ⟨by decide, by decide, by decide⟩
      marks := by
        rintro t ⟨⟩
        exact Schema.exists_mark_of_noWords (by decide) (by decide) (by decide) (by decide) }]
  closing := []
  noHeader := by simp
  declares := ⟨rfl, rfl⟩
  closingLine := by decide

/-- The comment makes the field unique. -/
theorem extract_slugBlock :
    slugBlock.source true ['\n'] = "model A \x7b\n  slug String // not @unique\n\x7d\n".toList ∧
    (World.run (extract (slugBlock.source false ['\n']) "A".toList Schema.optionalSystemFields)
      { tree := .empty }).1.toOption.map (·.fields) = some [{ name := "slug".toList, rawType := "String".toList }] ∧
    (World.run (extract (slugBlock.source true ['\n']) "A".toList Schema.optionalSystemFields)
      { tree := .empty }).1.toOption.map (·.fields) =
        some [{ name := "slug".toList, rawType := "String".toList, isUnique := true }] := by
  refine ⟨by decide +kernel, ?_, ?_⟩
  · decide +kernel
  · decide +kernel

end Samples

end EntityScaffold.Run
