import EntityScaffold.Payload.TestData
import Mathlib.Data.List.Basic

/-
The payloads of generated tests and what the answers are matched with: entry by entry they are about one field, and the
constructor that an answer is matched with is compared with the type of the literal that was sent.
-/

namespace EntityScaffold.Payload

open Schema

/-- The type of a value that a test sends or is answered with. -/
inductive JsType where
  | string
  | number
  | boolean
  deriving DecidableEq, Repr

def JsType.constructor : JsType → Text
  | string => "String".toList
  | number => "Number".toList
  | boolean => "Boolean".toList

/-- What an answer that holds a value of the type is matched with. -/
def JsType.anyValue (t : JsType) : Text := "expect.any(".toList ++ t.constructor ++ ")".toList

def isQuoted (quote : Char) (t : Text) : Bool := 2 ≤ t.length && t.head? = some quote && t.getLast? = some quote

/-- Whether a text consists of digits and points, and starts with a digit. -/
def isNumeral (t : Text) : Bool := t.head?.any Char.isDigit && t.all fun c => c.isDigit || c = '.'

/-- The type of a literal, by its form. A date that is written in the ISO format is a string. -/
def literalType? (t : Text) : Option JsType :=
  if isQuoted '\'' t || isQuoted '\x60' t || t = "new Date().toISOString()".toList then some .string
  else if t = "true".toList || t = "false".toList then some .boolean
  else if isNumeral t then some .number
  else none

/-- The type of the literals of a primitive type. -/
def scalarJsType : Scalar → JsType
  | .int | .float => .number
  | .boolean => .boolean
  | _ => .string

/-- The type that a field's answer is expected to have: the type of its elements, if it is a list. -/
def expectedType (f : Field) : JsType := (scalar? f.rawType).elim .string scalarJsType

/-- The type of what is sent for a field: a list is sent as a text. -/
def sentType (f : Field) : JsType := if f.isArray then .string else expectedType f

/-- A list of numbers or of truth values. -/
def IsUnquotedList (f : Field) : Prop := f.isArray = true ∧ ∃ s ∈ [Scalar.int, .float, .boolean], scalar? f.rawType = some s

/-- The entries of a payload, and the expectations of the answer for the same fields in the same order. What is expected has
the type of the literal that is sent, unless the field is a list of numbers or of truth values. -/
inductive Expects : List Field → List Text → List Text → Prop where
  | nil : Expects [] [] []
  | cons {f : Field} {fs : List Field} {literal : Text} {sent expected : JsType} {data expectations : List Text}
      (typed : literalType? literal = some sent) (agree : expected = sent ↔ ¬ IsUnquotedList f)
      (rest : Expects fs data expectations) :
      Expects (f :: fs) (entry f literal :: data) (entry f expected.anyValue :: expectations)

theorem isQuoted_append (quote : Char) (t : Text) : isQuoted quote (quote :: (t ++ [quote])) = true := by
  simp [isQuoted, List.getLast?_cons]

theorem literalType?_stampedLiteral (word field : Text) : literalType? (stampedLiteral word field) = some .string := by
  have form : stampedLiteral word field =
      '\x60' :: ((word ++ " ".toList ++ field ++ " $\x7bDate.now()\x7d".toList) ++ ['\x60']) := by
    simp [stampedLiteral]
  rw [literalType?, form, isQuoted_append, Bool.or_true, Bool.true_or, if_pos rfl]

theorem literalType?_scalarLiterals (field : Text) (s : Scalar) :
    literalType? (scalarLiterals field s).create = some (scalarJsType s) ∧
      literalType? (scalarLiterals field s).update = some (scalarJsType s) := by
  cases s with
  | string => exact ⟨literalType?_stampedLiteral _ field, literalType?_stampedLiteral _ field⟩
  | _ =>
    dsimp only [scalarLiterals]
    decide

theorem literalType?_fieldLiterals (f : Field) :
    literalType? (fieldLiterals f).create = some (sentType f) ∧ literalType? (fieldLiterals f).update = some (sentType f) := by
  have generic : literalType? genericLiterals.create = some .string ∧ literalType? genericLiterals.update = some .string := by
    decide
  unfold fieldLiterals literals sentType expectedType
  split
  · exact generic
  · cases scalar? f.rawType with
    | some s => exact literalType?_scalarLiterals f.name s
    | none => exact generic

theorem matcherName_eq_constructor (s : Scalar) : s.matcherName = (scalarJsType s).constructor := by
  cases s <;> rfl

theorem expectation_eq_entry (f : Field) : expectation f = entry f (expectedType f).anyValue := by
  have named : matcher f.rawType = (expectedType f).constructor := by
    unfold matcher expectedType
    cases scalar? f.rawType with
    | some s => exact matcherName_eq_constructor s
    | none => rfl
  exact congrArg (fun t => entry f ("expect.any(".toList ++ t ++ ")".toList)) named

theorem expectedType_eq_sentType_iff (f : Field) : expectedType f = sentType f ↔ ¬ IsUnquotedList f := by
  unfold sentType IsUnquotedList expectedType
  cases f.isArray with
  | false => simp
  | true =>
    cases scalar? f.rawType with
    | none => simp
    | some s => cases s <;> simp [scalarJsType]

theorem createFields_sublist (cap : Int) (taken : Nat) (fs : List Field) : (createFields cap taken fs).Sublist fs := by
  induction fs generalizing taken with
  | nil => exact .slnil
  | cons f fs ih =>
    rw [createFields]
    split
    · exact (ih (taken + 1)).cons_cons f
    · exact (ih taken).cons f

theorem required_sublist_createFields (cap : Int) (taken : Nat) (fs : List Field) :
    (fs.filter fun f => !f.isOptional).Sublist (createFields cap taken fs) := by
  induction fs generalizing taken with
  | nil => exact .slnil
  | cons f fs ih =>
    rw [createFields, List.filter_cons]
    cases hf : f.isOptional with
    | false => simpa using ih (taken + 1)
    | true =>
      rw [if_neg (by simp)]
      split
      · exact (ih (taken + 1)).cons f
      · exact ih taken

theorem expects_map {literal : Field → Text} (typed : ∀ f, literalType? (literal f) = some (sentType f)) (fs : List Field) :
    Expects fs (fs.map fun f => entry f (literal f)) (fs.map expectation) := by
  induction fs with
  | nil => exact .nil
  | cons f fs ih =>
    rw [List.map_cons, List.map_cons, expectation_eq_entry]
    exact .cons (typed f) (expectedType_eq_sentType_iff f) ih

/-- A payload that creates is expected back for the fields it holds, which are the required ones and some of the optional ones
that requests set; a payload that updates is expected back for all that requests set. -/
theorem expects_testData (m : Model) (optionalCap invalidCap : Int) (system : List Text) :
    let d := testData m optionalCap invalidCap system
    let fs := m.editable system
    (∃ created, (fs.filter fun f => !f.isOptional).Sublist created ∧ created.Sublist fs ∧
        Expects created d.createData d.createExpectation) ∧
      Expects fs d.updateData d.updateExpectation := by
  refine ⟨⟨createFields optionalCap 0 (m.editable system), ?_, createFields_sublist _ _ _, ?_⟩, ?_⟩
  · exact required_sublist_createFields _ _ _
  · exact expects_map (fun f => (literalType?_fieldLiterals f).1) _
  · exact expects_map (fun f => (literalType?_fieldLiterals f).2) _

/-- A list of integers is sent as a text, and a number is expected back. -/
theorem testData_scores :
    let scores : Field := { name := "scores".toList, rawType := "Int".toList, isArray := true }
    let d := testData { entity := "Widget".toList, fields := [scores] } 2 2 systemFields
    d.createData = ["scores: 'test value'".toList] ∧ d.createExpectation = ["scores: expect.any(Number)".toList] ∧
    literalType? "'test value'".toList = some .string ∧ JsType.string.constructor ≠ "Number".toList := by
  decide

end EntityScaffold.Payload
