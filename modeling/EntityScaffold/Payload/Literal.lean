import EntityScaffold.Schema.Scalar

/- The literals that generated tests send for a field: when creating, when updating, and a value of the wrong type. -/

namespace EntityScaffold.Payload

open Schema

structure Literals where
  create : Text
  update : Text
  invalid : Text
  deriving DecidableEq, Repr

/-- The literals of lists, of unknown types, and of primitive types without a row of their own. -/
def genericLiterals : Literals :=
  ⟨"'test value'".toList, "'updated value'".toList, "123".toList⟩

/-- A template literal that tells a field's values apart by the time. -/
def stampedLiteral (word field : Text) : Text :=
  "`".toList ++ word ++ " ".toList ++ field ++ " $\x7bDate.now()\x7d`".toList

def scalarLiterals (field : Text) : Scalar → Literals
  | .string => ⟨stampedLiteral "Test".toList field, stampedLiteral "Updated".toList field, "12345".toList⟩
  | .int => ⟨"1".toList, "2".toList, "'not a number'".toList⟩
  | .float => ⟨"10.5".toList, "20.5".toList, "'not a float'".toList⟩
  | .boolean => ⟨"true".toList, "false".toList, "'not a boolean'".toList⟩
  | .dateTime => ⟨"new Date().toISOString()".toList, "new Date().toISOString()".toList, "'invalid date'".toList⟩
  | _ => genericLiterals

def literals (field rawType : Text) (isArray : Bool) : Literals :=
  if isArray then genericLiterals
  else match scalar? rawType with
    | some s => scalarLiterals field s
    | none => genericLiterals

end EntityScaffold.Payload
