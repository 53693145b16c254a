import EntityScaffold.Naming
import EntityScaffold.Schema.Field
import EntityScaffold.Schema.Scalar

/-
The chain of checks that a request's value for a field has to pass: presence, type, length and uniqueness, in this
order, each of the last three only where the field asks for it. A request that updates a record may leave out every
field, and its uniqueness check passes over the record itself.
-/

namespace EntityScaffold.RequestChecks

open Schema

inductive Purpose where
  | create
  | update
  deriving DecidableEq, Repr

def messageKey (entity field ending : Text) : Text :=
  "validator.".toList ++ Naming.upperKey entity ++ "_".toList ++ Naming.upperKey field ++ "_".toList ++ ending

def withMessage (key : Text) : Text := ".withMessage(i18n.__('".toList ++ key ++ "'))".toList

/-- A required field must be there in a request that creates; any other may be left out. -/
def presence (purpose : Purpose) (entity : Text) (f : Field) : Text :=
  if purpose = .update || f.isOptional then ".optional()".toList
  else ".notEmpty()".toList ++ withMessage (messageKey entity f.name "IS_REQUIRED".toList)

/-- The check of a primitive type; some types have none. -/
def scalarCheck? : Scalar → Option Text
  | .string => some (".isString()".toList ++ withMessage "validator.MUST_BE_A_STRING".toList)
  | .int => some (".toInt().isInt()".toList ++ withMessage "validator.MUST_BE_A_VALID_INTEGER".toList)
  | .float => some (".isFloat()".toList ++ withMessage "validator.MUST_BE_A_VALID_FLOAT".toList)
  | .boolean => some (".isBoolean()".toList ++ withMessage "validator.MUST_BE_A_BOOLEAN".toList)
  | _ => none

/-- The type check of a field; lists and unknown types have none. -/
def typeCheck? (f : Field) : Option Text :=
  if f.isArray then none else (scalar? f.rawType).bind scalarCheck?

def isBounded (f : Field) : Bool := !f.isArray && scalar? f.rawType = some .string

def lengthCheck? (entity : Text) (maxLength : Int) (f : Field) : Option Text :=
  if isBounded f then
    let ending := "MUST_BE_LESS_THAN_".toList ++ Text.ofInt (maxLength + 1) ++ "_CHARACTERS".toList
    some (".isLength(\x7b max: ".toList ++ Text.ofInt maxLength ++ " \x7d)".toList ++
      withMessage (messageKey entity f.name ending))
  else none

/-- The lines of a uniqueness check: look the value up, and refuse it if another record has it. -/
def uniqueLines (purpose : Purpose) (entity field : Text) : List Text :=
  let record := Naming.lowerCamel entity
  let key := messageKey entity field "MUST_BE_UNIQUE".toList
  let opening := match purpose with
    | .create => [".custom(async (".toList ++ field ++ ") => \x7b".toList]
    | .update => [
        ".custom(async (".toList ++ field ++ ", \x7b req \x7d) => \x7b".toList,
        "              const \x7b id \x7d: any = req.params;".toList]
  let taken := match purpose with
    | .create => record
    | .update => record ++ " && ".toList ++ record ++ ".id !== Number(id)".toList
  opening ++ [
    "              const ".toList ++ record ++ " = await prisma.".toList ++ record ++ ".findUnique(\x7b".toList,
    "                  where: \x7b ".toList ++ field ++ " \x7d,".toList,
    "              \x7d);".toList,
    "              if (".toList ++ taken ++ ") \x7b".toList,
    "                  throw new Error(i18n.__('".toList ++ key ++ "'));".toList,
    "              \x7d".toList,
    "              return true;".toList,
    "          \x7d)".toList]

def uniqueCheck? (purpose : Purpose) (entity : Text) (f : Field) : Option Text :=
  if f.isUnique then some (Text.joinWith ['\n'] (uniqueLines purpose entity f.name)) else none

/-- A field's chain of checks, each on a line of its own. -/
def rule (purpose : Purpose) (entity : Text) (maxLength : Int) (f : Field) : Text :=
  let checks := [typeCheck? f, lengthCheck? entity maxLength f, uniqueCheck? purpose entity f].filterMap id
  Text.joinWith "\n          ".toList
    (("body('".toList ++ f.name ++ "')".toList) :: presence purpose entity f :: checks)

/-- The longest string that a request may hold unless the settings say otherwise. -/
def defaultMaxLength : Int := 190

/-- The chains of a model's fields, system fields left out: for requests that create and for requests that update. -/
structure Rules where
  create : List Text
  update : List Text
  deriving DecidableEq, Repr

def rules (m : Model) (maxLength : Int) (system : List Text) : Rules where
  create := (m.editable system).map (rule .create m.entity maxLength)
  update := (m.editable system).map (rule .update m.entity maxLength)

/-- Whether a field's chain can be written: the numbers in a length check must not have too many digits. -/
def isWritable (maxLength : Int) (f : Field) : Bool :=
  !isBounded f || (Text.isShowable maxLength && Text.isShowable (maxLength + 1))

def rulesNote (m : Model) (rs : Rules) : Log.Entry :=
  Log.debug "crudgen.validators".toList
    ("Synthesised ".toList ++ Text.ofNat rs.create.length ++ " validation rule pair(s) for ".toList ++ m.entity ++
      ".".toList)

end EntityScaffold.RequestChecks
