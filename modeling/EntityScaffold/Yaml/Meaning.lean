import EntityScaffold.Yaml.Stamp

/-
What plain words mean: which of them are truth values, numbers, days and moments. A number in base sixty has parts after
colons.
-/

namespace EntityScaffold.Yaml

/-- The kind of value that a node has. -/
inductive Tag where
  | null
  | bool
  | int
  | float
  | merge
  | timestamp
  | value
  | text
  | octets
  | sequence
  | mapping
  | set
  | orderedPairs
  | pairs
  | unknown
  deriving DecidableEq, Repr

def Tag.ofName (name : Text) : Tag :=
  match "tag:yaml.org,2002:".toList.isPrefixOf? name with
  | Option.none => .unknown
  | some ending =>
    let table : List (String × Tag) := [
      ("null", .null), ("bool", .bool), ("int", .int), ("float", .float), ("timestamp", .timestamp),
      ("value", .value), ("merge", .merge), ("str", .text), ("binary", .octets), ("seq", .sequence),
      ("map", .mapping), ("set", .set), ("omap", .orderedPairs), ("pairs", .pairs)]
    (table.lookup (String.ofList ending)).getD .unknown

def trueWords : List String := ["yes", "Yes", "YES", "true", "True", "TRUE", "on", "On", "ON"]

def falseWords : List String := ["no", "No", "NO", "false", "False", "FALSE", "off", "Off", "OFF"]

def nullWords : List String := ["~", "null", "Null", "NULL", ""]

def isDigitOrLine (c : Char) : Bool := c.isDigit || c = '_'

def isDigits : Text → Bool
  | [] => false
  | c :: r => c.isDigit && r.all isDigitOrLine

def isSixtieth : Text → Bool
  | [a] => a.isDigit
  | [a, b] => '0' ≤ a && a ≤ '5' && b.isDigit
  | _ => false

/-- Whether parts after colons follow a first one, which passes a test. -/
def isSixties (first : Text → Bool) (t : Text) : Bool :=
  match Text.splitAt ':' t with
  | a :: b :: r => first a && (b :: r).all isSixtieth
  | _ => false

/-- A plain word that is an integer: binary, octal, hexadecimal, decimal, or in base sixty. -/
def isInt (t : Text) : Bool :=
  match unsigned t with
  | '0' :: 'b' :: r => !r.isEmpty && r.all fun c => c = '0' || c = '1' || c = '_'
  | '0' :: 'x' :: r => !r.isEmpty && r.all fun c => (hexDigit c) || c = '_'
  | ['0'] => true
  | '0' :: r => r.all fun c => ('0' ≤ c && c ≤ '7') || c = '_'
  | r => isDigits r || isSixties isDigits r
where
  /-- A hexadecimal digit. -/
  hexDigit (c : Char) : Bool := c.isDigit || ('a' ≤ c && c ≤ 'f') || ('A' ≤ c && c ≤ 'F')

/-- Whether the end of a number is an exponent with its sign, or nothing. -/
def isExponent : Text → Bool
  | [] => true
  | e :: s :: d => (e = 'e' || e = 'E') && isSign s && !d.isEmpty && d.all Char.isDigit
  | _ => false

def isFloat (t : Text) : Bool :=
  let r := unsigned t
  let whole := r.takeWhile (· ≠ '.')
  match r.dropWhile (· ≠ '.') with
  | [] => false
  | _ :: part =>
    let ending := part.dropWhile isDigitOrLine
    let infinite := ["inf".toList, "Inf".toList, "INF".toList].contains part
    let notANumber := ["nan".toList, "NaN".toList, "NAN".toList].contains part
    if whole.isEmpty then
      infinite || (r.length = t.length && (notANumber || (isDigits (part.takeWhile isDigitOrLine) && isExponent ending)))
    else (isDigits whole && isExponent ending) || (isSixties isDigits whole && ending.isEmpty)

/-- What a plain word is. A line end after it does not count, unless the word is nothing else. -/
def plainTag (t : Text) : Tag :=
  let t := if t = ['\n'] then t else withoutLastBreak t
  let word := String.ofList t
  if trueWords.contains word || falseWords.contains word then .bool
  else if isFloat t then .float
  else if isInt t then .int
  else if word = "<<" then .merge
  else if nullWords.contains word then .null
  else if isStamp t then .timestamp
  else if word = "=" then .value
  else if ["!", "&", "*"].contains word then .unknown
  else .text

end EntityScaffold.Yaml
