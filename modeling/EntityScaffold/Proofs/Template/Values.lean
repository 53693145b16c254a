import EntityScaffold.Proofs.Entries
import EntityScaffold.Proofs.Json.Written
import EntityScaffold.Proofs.Schema.Characters
import EntityScaffold.Proofs.Template.Closed
import EntityScaffold.Proofs.Text.LetterCase

/-
The values that templates are filled with are closed. A field's name or type may end in the start of a slot, but has no
closing brace, and after it always comes a character that stands in no slot.
-/

namespace EntityScaffold.Template

open Schema

variable {s t x : Text} {f : Field} {entity : Text}

theorem Closed.after (hx : '\x7d' ∉ x) (hs : Closed s) (stop : s.head?.any isStop = true) : Closed (x ++ s) := by
  cases s with
  | nil => exact absurd stop (by simp)
  | cons c r => exact .stopped hx (by simpa using stop) hs.2

/-- The characters that would make a slot of an entity's name are not in it. -/
def PlainField (f : Field) : Prop := '\x7d' ∉ f.name ∧ '\x7d' ∉ f.rawType

section Texts

theorem not_mem_ofInt {c : Char} (digit : c.isDigit = false) (minus : c ≠ '-') (i : Int) : c ∉ Text.ofInt i := by
  intro h
  rcases Text.mem_ofInt h with rfl | isDigit
  · exact minus rfl
  · exact absurd isDigit (by simp [digit])

theorem not_mem_upperKey {c : Char} (small : c.toNat < 128) (other : ¬ Text.IsCapital c) (h : c ∉ t) :
    c ∉ Naming.upperKey t := fun mem => h (Text.mem_of_mem_upper mem other small)

theorem not_mem_plural (h : '$' ∉ t) : '$' ∉ Naming.plural t := fun mem =>
  (Naming.mem_of_mem_plural mem).elim h (by decide)

end Texts

section Members

theorem not_mem_codeType (h : '\x7d' ∉ f.rawType) : '\x7d' ∉ codeType f.rawType f.isArray := by
  have names (s : Scalar) : '\x7d' ∉ s.codeName := by
    cases s <;> decide
  have bare : '\x7d' ∉ bareType f.rawType := fun mem => h (bareType_subset _ mem)
  have asArray {t : Text} (base : '\x7d' ∉ t) : '\x7d' ∉ if f.isArray then t ++ "[]".toList else t := by
    split
    · rw [List.mem_append, not_or]
      exact ⟨base, by decide⟩
    · exact base
  unfold codeType
  dsimp only
  cases scalar? f.rawType with
  | some s => exact asArray (names s)
  | none => exact asArray bare

theorem closed_member (plain : PlainField f) : Closed (member f) := by
  have typed : Closed (codeType f.rawType f.isArray ++ ";".toList) :=
    .after (not_mem_codeType plain.2) (by decide) (by decide)
  have marked : Closed (": ".toList ++ (codeType f.rawType f.isArray ++ ";".toList)) :=
    Closed.append (by decide) typed
  unfold member
  simp only [List.append_assoc]
  refine .after plain.1 ?_ ?_
  · split
    · exact Closed.append (by decide) marked
    · exact marked
  · split <;> rfl

end Members

section Checks

open RequestChecks

variable {purpose : Purpose} {maxLength : Int}

theorem closed_messageKey (h : '$' ∉ entity) (plain : PlainField f) {ending : Text} (he : '\x7d' ∉ ending) (hs : Closed s)
    (stop : s.head?.any isStop = true) : Closed (messageKey entity f.name ending ++ s) := by
  have named : Closed (Naming.upperKey entity) :=
    closed_of_not_mem (not_mem_upperKey (by decide) (by unfold Text.IsCapital; decide) h)
  have key : '\x7d' ∉ Naming.upperKey f.name := not_mem_upperKey (by decide) (by unfold Text.IsCapital; decide) plain.1
  have rest : Closed (Naming.upperKey f.name ++ "_".toList ++ ending ++ s) := by
    refine .after ?_ hs stop
    simp only [List.mem_append, not_or]
    exact ⟨⟨key, by decide⟩, he⟩
  unfold messageKey
  simp only [List.append_assoc] at rest ⊢
  exact Closed.append (by decide) (named.append (Closed.append (by decide) rest))

theorem closed_withMessage (h : '$' ∉ entity) (plain : PlainField f) {ending : Text} (he : '\x7d' ∉ ending) :
    Closed (withMessage (messageKey entity f.name ending)) := by
  unfold withMessage
  rw [List.append_assoc]
  exact Closed.append (by decide) (closed_messageKey h plain he (by decide) (by decide))

theorem closed_presence (h : '$' ∉ entity) (plain : PlainField f) : Closed (presence purpose entity f) := by
  unfold presence
  split
  · decide
  · exact Closed.append (by decide) (closed_withMessage h plain (by decide))

theorem closed_typeCheck? {check : Text} (hc : typeCheck? f = some check) : Closed check := by
  have checks (s : Scalar) : ∀ check ∈ scalarCheck? s, Closed check := by
    cases s <;> decide
  unfold typeCheck? at hc
  split at hc
  · exact absurd hc (by simp)
  · obtain ⟨s, -, hs⟩ := Option.bind_eq_some_iff.1 hc
    exact checks s check hs

theorem closed_lengthCheck? (h : '$' ∉ entity) (plain : PlainField f) {check : Text}
    (hc : lengthCheck? entity maxLength f = some check) : Closed check := by
  have number : Closed (Text.ofInt maxLength) := closed_of_not_mem (not_mem_ofInt (by decide) (by decide) _)
  unfold lengthCheck? at hc
  split at hc
  · obtain rfl := Option.some.inj hc
    refine Closed.append (Closed.append (Closed.append (by decide) number) (by decide)) (closed_withMessage h plain ?_)
    simp only [List.mem_append, not_or]
    exact ⟨⟨by decide, not_mem_ofInt (by decide) (by decide) _⟩, by decide⟩
  · exact absurd hc (by simp)

theorem closed_framed (plain : PlainField f) (hs : Closed s) (ht : Closed t) (stop : t.head?.any isStop = true) :
    Closed (s ++ f.name ++ t) := by
  rw [List.append_assoc]
  exact hs.append (.after plain.1 ht stop)

theorem closed_of_mem_uniqueLines (h : '$' ∉ entity) (plain : PlainField f) {line : Text}
    (hline : line ∈ uniqueLines purpose entity f.name) : Closed line := by
  have record : Closed (Naming.lowerCamel entity) := closed_of_not_mem (Naming.not_mem_lowerCamel (by decide) h)
  unfold uniqueLines at hline
  rcases List.mem_append.1 hline with opening | hline
  · cases purpose with
    | create =>
      rw [List.mem_singleton.1 opening]
      exact closed_framed plain (by decide) (by decide) (by decide)
    | update =>
      simp only [List.mem_cons, List.not_mem_nil, or_false] at opening
      rcases opening with rfl | rfl
      · exact closed_framed plain (by decide) (by decide) (by decide)
      · decide
  · simp only [List.mem_cons, List.not_mem_nil, or_false] at hline
    rcases hline with rfl | rfl | rfl | rfl | rfl | rfl | rfl | rfl
    · exact ((((closed_of_not_mem (by decide)).append record).append (by decide)).append record).append (by decide)
    · exact closed_framed plain (by decide) (by decide) (by decide)
    · decide
    · cases purpose with
      | create => exact Closed.append (Closed.append (by decide) record) (by decide)
      | update =>
        have other := ((record.append (t := " && ".toList) (by decide)).append record).append
          (t := ".id !== Number(id)".toList) (by decide)
        exact Closed.append (Closed.append (by decide) other) (by decide)
    · rw [List.append_assoc]
      exact Closed.append (by decide) (closed_messageKey h plain (by decide) (by decide) (by decide))
    · decide
    · decide
    · decide

theorem closed_uniqueCheck? (h : '$' ∉ entity) (plain : PlainField f) {check : Text}
    (hc : uniqueCheck? purpose entity f = some check) : Closed check := by
  unfold uniqueCheck? at hc
  split at hc
  · obtain rfl := Option.some.inj hc
    exact .joinWith (by decide) fun line hline => closed_of_mem_uniqueLines h plain hline
  · exact absurd hc (by simp)

theorem closed_rule (h : '$' ∉ entity) (plain : PlainField f) : Closed (rule purpose entity maxLength f) := by
  have call : Closed ("body('".toList ++ f.name ++ "')".toList) := by
    rw [List.append_assoc]
    exact Closed.append (by decide) (.after plain.1 (by decide) (by decide))
  unfold rule
  refine .joinWith (by decide) ?_
  intro check hcheck
  rcases List.mem_cons.1 hcheck with rfl | hcheck
  · exact call
  rcases List.mem_cons.1 hcheck with rfl | hcheck
  · exact closed_presence h plain
  simp only [List.mem_filterMap, id, List.mem_cons, List.not_mem_nil, or_false] at hcheck
  obtain ⟨_, (rfl | rfl | rfl), hcheck⟩ := hcheck
  · exact closed_typeCheck? hcheck
  · exact closed_lengthCheck? h plain hcheck
  · exact closed_uniqueCheck? h plain hcheck

end Checks

section Payloads

open Payload

theorem closed_literals (plain : PlainField f) : Closed (fieldLiterals f).create ∧ Closed (fieldLiterals f).update ∧
    Closed (fieldLiterals f).invalid := by
  have generic : Closed genericLiterals.create ∧ Closed genericLiterals.update ∧ Closed genericLiterals.invalid := by
    decide
  have stamped (word : Text) (hw : '$' ∉ word) : Closed (stampedLiteral word f.name) := by
    have before : Closed ("`".toList ++ word ++ " ".toList) :=
      Closed.append (Closed.append (by decide) (closed_of_not_mem hw)) (by decide)
    exact closed_framed plain before (by decide) (by decide)
  unfold fieldLiterals literals
  split
  · exact generic
  · split
    · next s _ =>
      cases s with
      | string => exact ⟨stamped _ (by decide), stamped _ (by decide), closed_of_not_mem (by decide : '$' ∉ "12345".toList)⟩
      | int =>
        dsimp only [scalarLiterals]
        decide
      | float =>
        dsimp only [scalarLiterals]
        decide
      | boolean =>
        dsimp only [scalarLiterals]
        decide
      | dateTime =>
        dsimp only [scalarLiterals]
        decide
      | _ => exact generic
    · exact generic

theorem closed_entry (plain : PlainField f) (h : Closed t) : Closed (entry f t) := by
  unfold entry
  rw [List.append_assoc]
  exact .after plain.1 (Closed.append (by decide) h) rfl

theorem closed_expectation (plain : PlainField f) : Closed (expectation f) := by
  have names (s : Scalar) : Closed s.matcherName := by
    cases s <;> decide
  have matched : Closed (matcher f.rawType) := by
    unfold matcher
    split
    · exact names _
    · decide
  exact closed_entry plain (Closed.append (Closed.append (by decide) matched) (by decide))

theorem closed_filterParam {fs : List Field} (plain : ∀ f ∈ fs, PlainField f) : Closed (filterParam fs) := by
  unfold filterParam
  split
  · next f hf => exact .after (plain f (List.mem_of_find?_eq_some hf)).1 (by decide) (by decide)
  · decide

theorem mem_of_mem_createFields {cap : Int} {taken : Nat} {fs : List Field} (h : f ∈ createFields cap taken fs) :
    f ∈ fs := by
  induction fs generalizing taken with
  | nil => exact h
  | cons g fs ih =>
    unfold createFields at h
    split at h
    · rcases List.mem_cons.1 h with rfl | h
      · exact List.mem_cons_self
      · exact List.mem_cons_of_mem g (ih h)
    · exact List.mem_cons_of_mem g (ih h)

theorem closed_block {fs gs : List Field} {line : Field → Text} (plain : ∀ f ∈ fs, PlainField f) (sub : gs ⊆ fs)
    (h : ∀ f, PlainField f → Closed (line f)) : Closed (block (gs.map line)) := by
  refine .joinWith (by decide) ?_
  intro entry hentry
  obtain ⟨f, hf, rfl⟩ := List.mem_map.1 hentry
  exact h f (plain f (sub hf))

end Payloads

section Documentation

open Documentation

/-- A text that no slot can start in, or none can end in. -/
def Inert (t : Text) : Prop := '$' ∉ t ∨ '\x7d' ∉ t

def isSlotEnd (c : Char) : Bool := c = '$' || c = '\x7d'

theorem mem_of_mem_escaped {a : Bool} {c : Char} (hc : isSlotEnd c = true) (h : c ∈ t.flatMap (Json.escapeChar a)) :
    c ∈ t := by
  have signs : ∀ d ∈ Json.escapeSigns, isSlotEnd d = false := by decide
  obtain ⟨d, hd, h⟩ := List.mem_flatMap.1 h
  rcases Json.mem_escapeChar h with sign | ⟨rfl, -⟩
  · exact absurd hc (by simp [signs c sign])
  · exact hd

theorem closed_string (a : Bool) (h : Inert t) : Closed (Json.string a t) := by
  have closing : Closed (t.flatMap (Json.escapeChar a) ++ ['"']) := by
    rcases h with h | h
    · exact (closed_of_not_mem fun mem => h (mem_of_mem_escaped (by decide) mem)).append (by decide)
    · exact .after (fun mem => h (mem_of_mem_escaped (by decide) mem)) (by decide) (by decide)
  exact closing.cons (by decide)

theorem closed_lead (width level : Nat) : Closed (Json.Layout.lead (.indented width) level) := by
  refine closed_of_not_mem fun mem => ?_
  rcases List.mem_cons.1 mem with h | h
  · exact absurd h (by decide)
  · exact absurd (List.eq_of_mem_replicate h) (by decide)

theorem closed_bracketed {width level : Nat} {opening closing : Char} {items : List Text} (ho : opening ≠ '$')
    (hc : closing ≠ '$') (h : ∀ i ∈ items, Closed i) :
    Closed (Json.bracketed (.indented width) level opening closing items) := by
  unfold Json.bracketed
  split
  · exact .cons ho (.cons hc closed_nil)
  · refine .cons ho ?_
    refine ((Closed.append (closed_lead _ _) (.joinWith ?_ h)).append (closed_lead _ _)).append (.cons hc closed_nil)
    exact .cons (by decide) (closed_lead _ _)

theorem closed_list {width level : Nat} {items : List Json}
    (h : ∀ v ∈ items, Closed (Json.write ⟨.indented width, true⟩ (level + 1) v)) :
    Closed (Json.write ⟨.indented width, true⟩ level (.list items)) := by
  rw [Json.write_list]
  exact closed_bracketed (by decide) (by decide) (List.forall_mem_map.2 h)

theorem closed_object {width level : Nat} {members : List (Text × Json)}
    (h : ∀ p ∈ members, Inert p.1 ∧ Closed (Json.write ⟨.indented width, true⟩ (level + 1) p.2)) :
    Closed (Json.write ⟨.indented width, true⟩ level (.object members)) := by
  rw [Json.write_object]
  refine closed_bracketed (by decide) (by decide) (List.forall_mem_map.2 fun p hp => ?_)
  exact ((closed_string true (h p hp).1).append (by decide)).append (h p hp).2

theorem closed_text {width level : Nat} (h : Inert t) : Closed (Json.write ⟨.indented width, true⟩ level (.text t)) := by
  rw [Json.write]
  exact closed_string true h

theorem mem_properties {fs : List Field} {p : Text × Text} (h : p ∈ properties fs) :
    ∃ f ∈ fs, p = (f.name, docType f.rawType f.isArray) := by
  refine List.foldlRecOn fs _ (motive := fun ps => ∀ p ∈ ps, ∃ f ∈ fs, p = (f.name, docType f.rawType f.isArray))
    (by simp) ?_ p h
  intro ps hps f hf p hp
  rcases Entries.eq_or_mem_of_mem_put hp with rfl | hp
  · exact ⟨f, hf, rfl⟩
  · exact hps p hp

theorem inert_docType (raw : Text) (isArray : Bool) : Inert (docType raw isArray) := by
  have names (s : Scalar) : '$' ∉ s.docName := by
    cases s <;> decide
  have asArray {t : Text} (base : '$' ∉ t) : '$' ∉ if isArray then "array[".toList ++ t ++ "]".toList else t := by
    split
    · simp only [List.mem_append, not_or]
      exact ⟨⟨by decide, base⟩, by decide⟩
    · exact base
  left
  unfold docType
  dsimp only
  cases scalar? raw with
  | some s => exact asArray (names s)
  | none => exact asArray (show '$' ∉ "string".toList by decide)

theorem closed_definition {m : Model} {system : List Text} (h : '$' ∉ m.entity)
    (plain : ∀ f ∈ m.editable system, PlainField f) : Closed (Json.render codeForm (definition m system)) := by
  have names : ∀ v ∈ (required (m.editable system)).map Json.text, Closed (Json.write codeForm 3 v) := by
    intro v hv
    obtain ⟨t, ht, rfl⟩ := List.mem_map.1 hv
    obtain ⟨f, hf, rfl⟩ := List.mem_map.1 ht
    exact closed_text (Or.inr (plain f (List.mem_filter.1 hf).1).1)
  have types : ∀ p ∈ (properties (m.editable system)).map fun p => (p.1, Json.object [("type".toList, .text p.2)]),
      Inert p.1 ∧ Closed (Json.write codeForm 3 p.2) := by
    intro p hp
    obtain ⟨q, hq, rfl⟩ := List.mem_map.1 hp
    obtain ⟨f, hf, rfl⟩ := mem_properties hq
    refine ⟨Or.inr (plain f hf).1, closed_object ?_⟩
    rintro p hp
    obtain rfl := List.mem_singleton.1 hp
    exact ⟨Or.inl (show '$' ∉ "type".toList by decide), closed_text (inert_docType _ _)⟩
  refine closed_object ?_
  intro p hp
  obtain rfl := List.mem_singleton.1 hp
  refine ⟨Or.inl h, closed_object ?_⟩
  intro p hp
  simp only [List.mem_cons, List.not_mem_nil, or_false] at hp
  rcases hp with rfl | rfl | rfl
  · exact ⟨Or.inl (show '$' ∉ "type".toList by decide), closed_text (Or.inl (by decide))⟩
  · exact ⟨Or.inl (show '$' ∉ "required".toList by decide), closed_list names⟩
  · exact ⟨Or.inl (show '$' ∉ "properties".toList by decide), closed_object types⟩

end Documentation

section Contexts

theorem isSome_get?_iff {n : Text} {entries : Context} :
    (Entries.get? n entries).isSome = true ↔ n ∈ entries.map (·.1) := by
  simp [Entries.get?]

theorem mem_of_get? {n v : Text} {entries : Context} (h : Entries.get? n entries = some v) : (n, v) ∈ entries := by
  obtain ⟨e, he, rfl⟩ := Option.map_eq_some_iff.1 h
  obtain rfl : e.1 = n := by simpa using List.find?_some he
  exact List.mem_of_find?_eq_some he

theorem names_fullContext (m : Model) (permission apiPrefix : Text) (system : List Text) (rules : RequestChecks.Rules)
    (data : Payload.TestData) (n : Text) :
    n ∈ (fullContext m permission apiPrefix system rules data).map (·.1) ↔ n ∈ knownNames := by
  have names : (fullContext m permission apiPrefix system rules data).map (·.1) =
      (fullContext ⟨[], [], []⟩ [] [] [] ⟨[], []⟩ ⟨[], [], [], [], [], [], []⟩).map (·.1) := rfl
  have same : (fullContext ⟨[], [], []⟩ [] [] [] ⟨[], []⟩ ⟨[], [], [], [], [], [], []⟩).map (·.1) ⊆ knownNames ∧
      knownNames ⊆ (fullContext ⟨[], [], []⟩ [] [] [] ⟨[], []⟩ ⟨[], [], [], [], [], [], []⟩).map (·.1) := by
    decide +kernel
  rw [names]
  exact ⟨fun h => same.1 h, fun h => same.2 h⟩

variable {m : Model} {system : List Text} {permission apiPrefix : Text}

theorem closed_members (plain : ∀ f ∈ m.fields, PlainField f) : Closed (members m) := by
  refine .joinWith (by decide) fun line hline => ?_
  obtain ⟨f, hf, rfl⟩ := List.mem_map.1 hline
  exact closed_member (plain f hf)

theorem closed_chains {purpose : RequestChecks.Purpose} {maxLength : Int} {fs : List Field} (h : '$' ∉ entity)
    (plain : ∀ f ∈ fs, PlainField f) : Closed (chains (fs.map (RequestChecks.rule purpose entity maxLength))) := by
  refine .joinWith (by decide) fun line hline => ?_
  obtain ⟨f, hf, rfl⟩ := List.mem_map.1 hline
  exact closed_rule h (plain f hf)

theorem closed_placeholders {optionalCap invalidCap : Int} (plain : ∀ f ∈ m.editable system, PlainField f) :
    ∀ p ∈ (Payload.testData m optionalCap invalidCap system).placeholders, Closed p.2 := by
  have created : Payload.createFields optionalCap 0 (m.editable system) ⊆ m.editable system :=
    fun f hf => mem_of_mem_createFields hf
  have literal {line : Field → Text} (h : ∀ f, PlainField f → Closed (line f)) :
      ∀ f, PlainField f → Closed (Payload.entry f (line f)) := fun f hf => closed_entry hf (h f hf)
  simp only [Payload.TestData.placeholders, List.forall_mem_cons, List.not_mem_nil, false_implies, implies_true, and_true]
  exact ⟨closed_block plain created (literal fun f hf => (closed_literals hf).1),
    closed_block plain created fun f hf => closed_expectation hf,
    closed_block plain (List.Subset.refl _) (literal fun f hf => (closed_literals hf).2.1),
    closed_block plain (List.Subset.refl _) fun f hf => closed_expectation hf,
    closed_block plain (List.take_subset _ _) (literal fun f hf => (closed_literals hf).2.1),
    closed_block plain (List.take_subset _ _) (literal fun f hf => (closed_literals hf).2.2),
    closed_filterParam plain⟩

/-- The values for a model fill every known slot and no other, and put none where there was none. -/
theorem closes_fullContext (entity : '$' ∉ m.entity) (hpermission : '$' ∉ permission) (haddress : '$' ∉ apiPrefix)
    (plain : ∀ f ∈ m.fields, PlainField f) (maxLength optionalCap invalidCap : Int) :
    Closes (fullContext m permission apiPrefix system (RequestChecks.rules m maxLength system)
      (Payload.testData m optionalCap invalidCap system)) := by
  have editable : ∀ f ∈ m.editable system, PlainField f := fun f hf => plain f (List.mem_filter.1 hf).1
  have lower := Naming.not_mem_lowerCamel (by decide) entity
  constructor
  · exact fun n => isSome_get?_iff.trans (names_fullContext _ _ _ _ _ _ n)
  · intro n v hv
    revert n v
    suffices all : ∀ p ∈ fullContext m permission apiPrefix system (RequestChecks.rules m maxLength system)
        (Payload.testData m optionalCap invalidCap system), Closed p.2 from fun n v hv => all _ (mem_of_get? hv)
    intro p hp
    rcases List.mem_append.1 hp with hp | hp
    · rcases List.mem_append.1 hp with hp | hp
      · simp only [nameContext, List.mem_cons, List.not_mem_nil, or_false] at hp
        rcases hp with rfl | rfl | rfl | rfl
        · exact closed_of_not_mem entity
        · exact closed_of_not_mem lower
        · exact closed_of_not_mem (not_mem_plural lower)
        · exact closed_of_not_mem haddress
      · simp only [List.mem_cons, List.not_mem_nil, or_false] at hp
        rcases hp with rfl | rfl | rfl | rfl | rfl
        · exact closed_of_not_mem hpermission
        · exact closed_members plain
        · exact closed_chains entity editable
        · exact closed_chains entity editable
        · exact closed_definition entity editable
    · exact closed_placeholders editable p hp

end Contexts

end EntityScaffold.Template
