import EntityScaffold.Log

/-
The primitive types of the schema language, and the name each has in generated code, in API documentation and in
test matchers. Any other type name is an enumeration or a model and falls back in each of the three.
-/

namespace EntityScaffold.Schema

inductive Scalar where
  | string
  | int
  | float
  | boolean
  | dateTime
  | decimal
  | bigInt
  | json
  | bytes
  deriving DecidableEq, Repr

namespace Scalar

def all : List Scalar := [string, int, float, boolean, dateTime, decimal, bigInt, json, bytes]

def name : Scalar → Text
  | string => "String".toList
  | int => "Int".toList
  | float => "Float".toList
  | boolean => "Boolean".toList
  | dateTime => "DateTime".toList
  | decimal => "Decimal".toList
  | bigInt => "BigInt".toList
  | json => "Json".toList
  | bytes => "Bytes".toList

def codeName : Scalar → Text
  | string => "string".toList
  | int => "number".toList
  | float => "number".toList
  | boolean => "boolean".toList
  | dateTime => "Date".toList
  | decimal => "number".toList
  | bigInt => "bigint".toList
  | json => "any".toList
  | bytes => "Buffer".toList

/-- The type's name in API documentation, which knows no more than these. -/
def docName : Scalar → Text
  | int => "integer".toList
  | float => "number".toList
  | boolean => "boolean".toList
  | _ => "string".toList

/-- The constructor that a test matches a value of the type with. -/
def matcherName : Scalar → Text
  | int => "Number".toList
  | float => "Number".toList
  | boolean => "Boolean".toList
  | _ => "String".toList

end Scalar

/-- The text without its pairs of square brackets, in one pass from the left. -/
def withoutBrackets : Text → Text
  | '[' :: ']' :: r => withoutBrackets r
  | c :: r => c :: withoutBrackets r
  | [] => []

def bareType (raw : Text) : Text := withoutBrackets (raw.filter (· ≠ '?'))

def scalar? (raw : Text) : Option Scalar := Scalar.all.find? fun s => s.name = bareType raw

/-- The type of a field in generated code; an unknown name stands for itself. -/
def codeType (raw : Text) (isArray : Bool) : Text :=
  let base := match scalar? raw with
    | some s => s.codeName
    | none => bareType raw
  if isArray then base ++ "[]".toList else base

/-- What is reported for a type name that stands for itself. -/
def codeTypeNotes (raw : Text) : List Log.Entry :=
  match scalar? raw with
  | some _ => []
  | none =>
    [Log.debug "crudgen.typemap".toList
      ("Type '".toList ++ bareType raw ++ "' is not a primitive; passing it through.".toList)]

/-- The type of a field in API documentation; an unknown name is documented as a string. -/
def docType (raw : Text) (isArray : Bool) : Text :=
  let base := match scalar? raw with
    | some s => s.docName
    | none => "string".toList
  if isArray then "array[".toList ++ base ++ "]".toList else base

/-- The constructor that a test matches a field's value with. -/
def matcher (raw : Text) : Text :=
  match scalar? raw with
  | some s => s.matcherName
  | none => "String".toList

end EntityScaffold.Schema
