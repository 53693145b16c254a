import EntityScaffold.Proofs.Entries
import EntityScaffold.Proofs.Run.Registration
import EntityScaffold.Run.Generation
import Mathlib.Data.List.Forall2
import Mathlib.Data.List.Nodup

/-
What is generated from a model in several places: checks of requests, payloads of tests, documentation and an interface. All
of them show the same fields in the same order, and the same fields as required.
-/

namespace EntityScaffold

namespace Json

def member? (key : Text) : Json → Option Json
  | object members => (members.find? fun p => p.1 = key).map (·.2)
  | _ => none

def keys : Json → List Text
  | object members => members.map (·.1)
  | _ => []

def texts : Json → List Text
  | list items => items.filterMap fun
    | text t => some t
    | _ => none
  | _ => []

@[simp] theorem texts_list_text (ts : List Text) : (list (ts.map text)).texts = ts := by
  simp [texts]

end Json

namespace Documentation

open Schema

variable {fs : List Field} {f : Field}

theorem properties_eq (distinct : (fs.map (·.name)).Nodup) :
    properties fs = fs.map fun f => (f.name, docType f.rawType f.isArray) :=
  Entries.foldl_put Field.name (fun f => docType f.rawType f.isArray) [] distinct

theorem mem_required_iff (distinct : (fs.map (·.name)).Nodup) (hf : f ∈ fs) :
    f.name ∈ required fs ↔ f.isOptional = false := by
  constructor
  · intro h
    obtain ⟨g, hg, same⟩ := List.mem_map.1 h
    obtain ⟨hg, demanded⟩ := List.mem_filter.1 hg
    rw [← List.inj_on_of_nodup_map distinct hg hf same]
    simpa using demanded
  · intro h
    exact List.mem_map_of_mem (List.mem_filter.2 ⟨hf, by simp [h]⟩)

/-- A part of the definition of the model's entity. -/
def part? (m : Model) (system : List Text) (key : Text) : Option Json :=
  ((definition m system).member? m.entity).bind (Json.member? key)

theorem part?_required (m : Model) (system : List Text) :
    (part? m system "required".toList).map Json.texts = some (required (m.editable system)) := by
  simp [part?, definition, Json.member?]

theorem part?_properties {m : Model} {system : List Text} (distinct : ((m.editable system).map (·.name)).Nodup) :
    (part? m system "properties".toList).map Json.keys = some ((m.editable system).map (·.name)) := by
  simp [part?, definition, Json.member?, Json.keys, properties_eq distinct, Function.comp_def]

end Documentation

namespace RequestChecks

open Schema

/-- What a chain starts with, and what stands between its checks. -/
def call (field : Text) : Text := "body('".toList ++ field ++ "')".toList

def separator : Text := "\n          ".toList

theorem presence_of_optional {purpose : Purpose} {f : Field} (h : purpose = .update ∨ f.isOptional = true) (entity : Text) :
    presence purpose entity f = ".optional()".toList := by
  rw [presence, if_pos (by simpa using h)]

theorem presence_of_required {f : Field} (h : f.isOptional = false) (entity : Text) :
    ".notEmpty()".toList <+: presence .create entity f := by
  rw [presence, if_neg (by simp [h])]
  exact List.prefix_append _ _

theorem typeCheck?_ne (f : Field) : typeCheck? f ≠ some [] := by
  have check (s : Scalar) : scalarCheck? s ≠ some [] := by
    cases s <;> simp [scalarCheck?]
  rw [typeCheck?]
  split
  · simp
  · cases scalar? f.rawType with
    | none => simp
    | some s => exact check s

theorem lengthCheck?_ne (entity : Text) (maxLength : Int) (f : Field) : lengthCheck? entity maxLength f ≠ some [] := by
  rw [lengthCheck?]
  split
  · simp
  · simp

theorem uniqueCheck?_ne (purpose : Purpose) (entity : Text) (f : Field) : uniqueCheck? purpose entity f ≠ some [] := by
  have starts : ∃ r, Text.joinWith ['\n'] (uniqueLines purpose entity f.name) = '.' :: r := by
    cases purpose with
    | create => exact ⟨_, rfl⟩
    | update => exact ⟨_, rfl⟩
  obtain ⟨r, hr⟩ := starts
  rw [uniqueCheck?, hr]
  split
  · simp
  · simp

theorem filterMap_id_eq {checks : List (Option Text)} (h : some [] ∉ checks) :
    checks.filterMap id = (checks.map (·.getD [])).filter (· ≠ []) := by
  induction checks with
  | nil => rfl
  | cons c cs ih =>
    obtain ⟨hc, hcs⟩ := not_or.1 (mt List.mem_cons.2 h)
    cases c with
    | none => simpa using ih hcs
    | some t =>
      have ht : t ≠ [] := fun ht => hc (by rw [ht])
      simpa [ht] using ih hcs

theorem rule_eq (purpose : Purpose) (entity : Text) (maxLength : Int) (f : Field) :
    rule purpose entity maxLength f = Text.joinWith separator
      ([call f.name, presence purpose entity f, (typeCheck? f).getD [], (lengthCheck? entity maxLength f).getD [],
        (uniqueCheck? purpose entity f).getD []].filter (· ≠ [])) := by
  have made : some [] ∉ [typeCheck? f, lengthCheck? entity maxLength f, uniqueCheck? purpose entity f] := by
    simp [Ne.symm (typeCheck?_ne f), Ne.symm (lengthCheck?_ne entity maxLength f),
      Ne.symm (uniqueCheck?_ne purpose entity f)]
  have named : call f.name ≠ [] := List.cons_ne_nil 'b' _
  have present : presence purpose entity f ≠ [] := by
    rw [presence]
    split
    · simp
    · simp
  rw [rule, filterMap_id_eq made]
  simp only [List.filter_cons, List.map_cons, List.map_nil, List.filter_nil, ne_eq, named, present, not_false_eq_true,
    decide_true, if_true]
  rfl

theorem head_prefix_rule (purpose : Purpose) (entity : Text) (maxLength : Int) (f : Field) :
    call f.name ++ (separator ++ presence purpose entity f) <+: rule purpose entity maxLength f := by
  have first (x : Text) (xs : List Text) : x <+: Text.joinWith separator (x :: xs) := by
    cases xs with
    | nil => simp [Text.joinWith]
    | cons y ys =>
      rw [Text.joinWith, List.intercalate_cons_cons, List.append_assoc]
      exact List.prefix_append _ _
  rw [rule, Text.joinWith, List.intercalate_cons_cons, List.append_assoc]
  refine (List.prefix_append_right_inj _).2 ((List.prefix_append_right_inj _).2 ?_)
  exact first _ _

theorem notEmpty_prefix_iff (entity : Text) (maxLength : Int) (f : Field) :
    call f.name ++ (separator ++ ".notEmpty()".toList) <+: rule .create entity maxLength f ↔ f.isOptional = false := by
  constructor
  · intro h
    rw [Bool.eq_false_iff]
    intro optional
    have head := head_prefix_rule .create entity maxLength f
    rw [presence_of_optional (.inr optional)] at head
    rcases List.prefix_or_prefix_of_prefix h head with h | h
    · rw [List.prefix_append_right_inj, List.prefix_append_right_inj] at h
      exact absurd h (by decide)
    · rw [List.prefix_append_right_inj, List.prefix_append_right_inj] at h
      exact absurd h (by decide)
  · intro required
    refine List.IsPrefix.trans ?_ (head_prefix_rule .create entity maxLength f)
    rw [List.prefix_append_right_inj, List.prefix_append_right_inj]
    exact presence_of_required required entity

theorem rule_update_of_isOptional (entity : Text) (maxLength : Int) (f : Field) (b : Bool) :
    rule .update entity maxLength { f with isOptional := b } = rule .update entity maxLength f := by
  rw [rule_eq, rule_eq, presence_of_optional (.inl rfl), presence_of_optional (.inl rfl)]
  rfl

end RequestChecks

namespace Template

open Schema RequestChecks

theorem mark_prefix_iff (f : Field) : f.name ++ ['?'] <+: member f ↔ f.isOptional = true := by
  rw [member, List.append_assoc, List.append_assoc, List.append_assoc, List.prefix_append_right_inj]
  cases f.isOptional with
  | true => simp
  | false => simp

/-- The names of the fields that are shown: those of the model's fields that are no system fields, in their order. -/
def shownNames (m : Model) (system : List Text) : List Text := (m.fields.map (·.name)).filter fun n => !system.contains n

theorem map_name_editable (m : Model) (system : List Text) : (m.editable system).map (·.name) = shownNames m system := by
  rw [shownNames, List.filter_map]
  rfl

def chainsFor (rules : Rules) : Purpose → List Text
  | .create => rules.create
  | .update => rules.update

/-- All that is generated from a model shows the same fields, and agrees on which of them are required. -/
structure Agree (m : Model) (system : List Text) (maxLength : Int) (rules : Rules) (data : Payload.TestData) : Prop where
  checked : ∀ purpose, List.Forall₂ (fun n r => call n ++ separator <+: r) (shownNames m system) (chainsFor rules purpose)
  sent : List.Forall₂ (fun n e => n ++ ": ".toList <+: e) (shownNames m system) data.updateData
  expected : List.Forall₂ (fun n e => n ++ ": ".toList <+: e) (shownNames m system) data.updateExpectation
  documented : (Documentation.part? m system "properties".toList).map Json.keys = some (shownNames m system)
  /-- What is documented as required is demanded of a request that creates, and has no mark in the interface. -/
  required : ∃ names, (Documentation.part? m system "required".toList).map Json.texts = some names ∧
    List.Forall₂ (fun f r => call f.name ++ (separator ++ ".notEmpty()".toList) <+: r ↔ f.name ∈ names)
      (m.editable system) rules.create ∧
    ∀ f ∈ m.editable system, f.name ++ ['?'] <+: member f ↔ f.name ∉ names
  /-- A request that updates may leave out every field, whether it is optional or not. -/
  lenient : List.Forall₂ (fun f r => call f.name ++ (separator ++ ".optional()".toList) <+: r ∧
    ∀ b, rule .update m.entity maxLength { f with isOptional := b } = r) (m.editable system) rules.update
  /-- The checks of the type and the length are the same for both purposes. -/
  assembled : ∀ purpose, List.Forall₂ (fun f r => r = Text.joinWith separator
    ([call f.name, presence purpose m.entity f, (typeCheck? f).getD [], (lengthCheck? m.entity maxLength f).getD [],
      (uniqueCheck? purpose m.entity f).getD []].filter (· ≠ []))) (m.editable system) (chainsFor rules purpose)

variable {m : Model} {system : List Text}

theorem chainsFor_rules (m : Model) (maxLength : Int) (system : List Text) (purpose : Purpose) :
    chainsFor (rules m maxLength system) purpose = (m.editable system).map (rule purpose m.entity maxLength) := by
  cases purpose with
  | create => rfl
  | update => rfl

theorem forall₂_map {α β : Type} {P : α → β → Prop} {g : α → β} {xs : List α} (h : ∀ x ∈ xs, P x (g x)) :
    List.Forall₂ P xs (xs.map g) := by
  rw [List.forall₂_map_right_iff, List.forall₂_same]
  exact h

/-- One entry for each field is one for each shown name. -/
theorem forall₂_shownNames {P : Text → Text → Prop} {g : Field → Text} (h : ∀ f, P f.name (g f)) :
    List.Forall₂ P (shownNames m system) ((m.editable system).map g) := by
  rw [← map_name_editable, List.forall₂_map_left_iff]
  exact forall₂_map fun f _ => h f

theorem agree_of_distinct (distinct : (m.fields.map (·.name)).Nodup) (system : List Text)
    (maxLength optionalCap invalidCap : Int) :
    Agree m system maxLength (rules m maxLength system) (Payload.testData m optionalCap invalidCap system) := by
  have shown : ((m.editable system).map (·.name)).Nodup := by
    rw [map_name_editable]
    exact distinct.filter _
  have entry (f : Field) (value : Text) : f.name ++ ": ".toList <+: Payload.entry f value := List.prefix_append _ _
  constructor
  · intro purpose
    rw [chainsFor_rules]
    apply forall₂_shownNames
    intro f
    refine List.IsPrefix.trans ?_ (head_prefix_rule purpose m.entity maxLength f)
    exact (List.prefix_append_right_inj _).2 (List.prefix_append _ _)
  · exact forall₂_shownNames fun f => entry f _
  · exact forall₂_shownNames fun f => entry f _
  · rw [Documentation.part?_properties shown, map_name_editable]
  · refine ⟨_, Documentation.part?_required m system, forall₂_map ?_, ?_⟩
    · intro f hf
      rw [notEmpty_prefix_iff, Documentation.mem_required_iff shown hf]
    · intro f hf
      rw [mark_prefix_iff, Documentation.mem_required_iff shown hf, Bool.not_eq_false]
  · apply forall₂_map
    intro f _
    constructor
    · have head := head_prefix_rule .update m.entity maxLength f
      rwa [presence_of_optional (.inl rfl)] at head
    · intro b
      exact rule_update_of_isOptional m.entity maxLength f b
  · intro purpose
    rw [chainsFor_rules]
    exact forall₂_map fun f _ => rule_eq purpose m.entity maxLength f

/-- The values that templates are filled with can be made unless a field is a string whose greatest length, or the number
after it, has too many digits to be written; then nothing is made. All that is generated agrees. -/
theorem views_agree (g : Run.Generator) (distinct : (m.fields.map (·.name)).Nodup) (permission : Text) (w : World) :
    let s := g.settings
    let made := rules m s.maxLength s.systemFields
    let data := Payload.testData m s.optionalCap s.invalidCap s.systemFields
    (World.run (g.context m permission) w).1 =
      (if ∀ f ∈ m.editable s.systemFields, isBounded f → Text.isShowable s.maxLength ∧ Text.isShowable (s.maxLength + 1)
        then .ok (fullContext m permission s.apiPrefix s.systemFields made data) else .error .numberTooLong) ∧
    Agree m s.systemFields s.maxLength made data := by
  intro s made data
  refine ⟨?_, agree_of_distinct distinct s.systemFields s.maxLength s.optionalCap s.invalidCap⟩
  have writable : ((m.editable s.systemFields).all (isWritable s.maxLength) = true) ↔
      ∀ f ∈ m.editable s.systemFields, isBounded f → Text.isShowable s.maxLength ∧ Text.isShowable (s.maxLength + 1) := by
    rw [List.all_eq_true]
    refine forall₂_congr fun f _ => ?_
    cases h : isBounded f with
    | false => simp [isWritable, h]
    | true => simp [isWritable, h]
  rw [Run.Generator.context]
  by_cases h : (m.editable s.systemFields).all (isWritable s.maxLength) = true
  · obtain ⟨w', hnotes, -⟩ := Run.run_notes
      ([rulesNote m made, Payload.testDataNote m data] ++ memberNotes m) w
    simp only [s] at h writable
    rw [if_pos h, if_pos (writable.1 h), Run.run_bind_ok hnotes]
    rfl
  · simp only [s] at h writable
    rw [if_neg h, if_neg (mt writable.2 h)]
    rfl

section Samples

/-- A model with a required, an optional and a system field, and a list of a type that is not known. -/
def sampleModel : Model where
  entity := "Widget".toList
  fields := [
    { name := "id".toList, rawType := "Int".toList },
    { name := "title".toList, rawType := "String".toList, isUnique := true },
    { name := "size".toList, rawType := "Int".toList, isOptional := true },
    { name := "kinds".toList, rawType := "Kind".toList, isArray := true }]

theorem views_agree_sampleModel :
    (sampleModel.fields.map (·.name)).Nodup ∧
    ((World.run (Run.Generator.context { settings := {} } sampleModel "p".toList) { tree := .empty }).1.toOption.bind
      fun c => Entries.get? "modelFields".toList c) =
        some "id: number;\n    title: string;\n    size?: number;\n    kinds: Kind[];".toList ∧
    Agree sampleModel systemFields defaultMaxLength (rules sampleModel defaultMaxLength systemFields)
      (Payload.testData sampleModel 2 2 systemFields) := by
  have distinct : (sampleModel.fields.map (·.name)).Nodup := by decide
  obtain ⟨made, agree⟩ := views_agree { settings := {} } distinct "p".toList { tree := .empty }
  refine ⟨distinct, ?_, agree⟩
  rw [made]
  decide +kernel

def longest : Int := Int.ofNat (Nat.pow 10 4300 - 1)

/-- The number after the longest one cannot be written, so no checks are made with it. -/
theorem context_of_longest :
    (sampleModel.fields.map (·.name)).Nodup ∧
    (World.run (Run.Generator.context { settings := { maxLength := longest } } sampleModel "p".toList)
      { tree := .empty }).1 = .error .numberTooLong := by
  have long : ¬ (sampleModel.editable systemFields).all (isWritable longest) = true := by decide +kernel
  refine ⟨by decide, ?_⟩
  rw [Run.Generator.context, if_neg long]
  rfl

end Samples

end Template

end EntityScaffold
