import EntityScaffold.Text.Blank
import EntityScaffold.Text.Case
import EntityScaffold.Text.Digit
import EntityScaffold.Yaml.Fault
import EntityScaffold.Yaml.Word

/-
The numbers that scalars spell. Underscores within a number do not count; the digits may be of any script; a number in base
sixty has parts after colons.
-/

namespace EntityScaffold.Yaml

/-- A character as it counts where a number is read: beyond the first hundred and twenty-eight, every blank is a space, a digit is the
one of the same value, and no other character may stand there. -/
def numeral (c : Char) : Char :=
  if c.toNat < 128 then c
  else if Text.isBlank c then ' '
  else match Text.digitValue? c with
    | some d => Char.ofNat (48 + d)
    | none => '?'

def isAround (c : Char) : Bool := c = ' ' || (9 ≤ c.toNat && c.toNat ≤ 13)

def digitIn? (base : Nat) (c : Char) : Option Nat :=
  let d :=
    if c.isDigit then c.toNat - 48
    else if 'a' ≤ c && c ≤ 'z' then c.toNat - 87
    else if 'A' ≤ c && c ≤ 'Z' then c.toNat - 55
    else base
  if d < base then some d else none

/-- The letter that may stand after a zero in front of a number in a base. -/
def baseLetter? (base : Nat) : Option Char :=
  if base = 2 then some 'b' else if base = 8 then some 'o' else if base = 16 then some 'x' else none

/-- The text after the sign of its base, if it starts with one. -/
def withoutBase (base : Nat) : Text → Text
  | '0' :: c :: r => if baseLetter? base = some c.toLower then r else '0' :: c :: r
  | r => r

/-- The most digits that a decimal integer may have. -/
def mostDigits : Nat := 4300

/-- A complaint about a text that spells no integer shows its start only. -/
def noInteger (base : Nat) (t : Text) : Fault :=
  .outOfRange ("invalid literal for int() with base ".toList ++ Text.ofNat base ++ ": ".toList ++
    (Text.quoted t).take 200)

def tooLong (count : Nat) : Fault :=
  .outOfRange ("Exceeds the limit (4300 digits) for integer string conversion: value has ".toList ++
    Text.ofNat count ++ " digits; use sys.set_int_max_str_digits() to increase the limit".toList)

/-- The integer that digits spell in a base, perhaps after a sign and the sign of the base, with blanks around. -/
def integerIn (base : Nat) (t : Text) : Except Fault Int :=
  let r := (t.map numeral).dropWhile isAround
  let digits := withoutBase base (unsigned r)
  let values := (digits.map (digitIn? base)).takeWhile Option.isSome |>.filterMap id
  let rest := (digits.drop values.length).dropWhile isAround
  if base = 10 && mostDigits < values.length then .error (tooLong values.length)
  else if values.isEmpty || !rest.isEmpty then .error (noInteger base t)
  else
    let n := values.foldl (fun n d => base * n + d) 0
    .ok (if r.head? = some '-' then -(n : Int) else n)

/-- The integer that parts in base sixty make; the first part counts most. -/
def ofSixties (parts : List Int) : Int := parts.foldl (fun n d => 60 * n + d) 0

/-- The size of an integer that is not empty and has no sign. -/
def integerSize : Text → Except Fault Int
  | ['0'] => .ok 0
  | '0' :: 'b' :: r => integerIn 2 r
  | '0' :: 'x' :: r => integerIn 16 r
  | '0' :: r => integerIn 8 ('0' :: r)
  | r => if r.contains ':' then ((Text.splitAt ':' r).mapM (integerIn 10)).map ofSixties else integerIn 10 r

def integer (t : Text) : Except Fault Int :=
  let t := t.filter (· ≠ '_')
  match unsigned t with
  | [] => .error (.flawed .emptyNumber)
  | r => (integerSize r).map fun n => if t.head? = some '-' then -n else n

/-- The number nearest to `m · 10 ^ e`; far beyond all numbers the exponent does not matter. -/
def nearest (m : Nat) (e : Int) : Float :=
  let size : Int := e + (toString m).length
  if m = 0 || size < -400 then 0.0
  else if 400 < size then 1.0 / 0.0
  else if e < 0 then Float.ofScientific m true e.natAbs
  else Float.ofScientific m false e.natAbs

/-- The number of a text of decimal digits, if it has any. -/
def digits? (t : Text) : Option Nat := if t.isEmpty || !t.all Char.isDigit then none else some (naturalOf t)

/-- The number that decimal digits spell, perhaps with a point and an exponent. -/
def decimal? (t : Text) : Option Float := do
  let whole := t.takeWhile Char.isDigit
  let r := t.drop whole.length
  let (part, r) := match r with
    | '.' :: r => (r.takeWhile Char.isDigit, r.dropWhile Char.isDigit)
    | r => ([], r)
  let m ← digits? (whole ++ part)
  let exponent : Int ← match r with
    | [] => some 0
    | e :: r =>
      if e = 'e' || e = 'E' then do
        let n ← digits? (unsigned r)
        pure (if r.head? = some '-' then -(n : Int) else (n : Int))
      else none
  return nearest m (exponent - part.length)

/-- The number that a text without capitals spells, with blanks around. -/
def floatOf (t : Text) : Except Fault Float :=
  let bare := Text.trim isAround (t.map numeral)
  let size := match String.ofList (unsigned bare) with
    | "inf" => some (1.0 / 0.0)
    | "infinity" => some (1.0 / 0.0)
    | "nan" => some (0.0 / 0.0)
    | _ => decimal? (unsigned bare)
  match size with
  | some x => .ok (if bare.head? = some '-' then -x else x)
  | none => .error (.outOfRange ("could not convert string to float: ".toList ++ Text.quoted t))

/-- Adds numbers in base sixty, the last part first; the weight of a part must not be beyond all numbers. -/
def addSixties (sum : Float) (weight : Nat) : List Float → Except Fault Float
  | [] => .ok sum
  | d :: ds =>
    let w := Float.ofNat weight
    if w.isInf then .error (.flawed .tooManyParts) else addSixties (sum + d * w) (60 * weight) ds

def plainNumber (t : Text) : Text := Text.lower (t.filter (· ≠ '_'))

def numberSize (r : Text) : Except Fault Float :=
  if r = ".inf".toList then .ok (1.0 / 0.0)
  else if r = ".nan".toList then .ok (0.0 / 0.0)
  else if r.contains ':' then do
    let parts ← (Text.splitAt ':' r).mapM floatOf
    addSixties 0.0 1 parts.reverse
  else floatOf r

def number (t : Text) : Except Fault Float :=
  let t := plainNumber t
  if t.isEmpty then .error (.flawed .emptyNumber)
  else (numberSize (unsigned t)).map fun x => if t.head? = some '-' then -x else x

/-- Whether a scalar spells the one value that is no number and of which there is only one. -/
def isSharedNan (t : Text) : Bool := unsigned (plainNumber t) = ".nan".toList

end EntityScaffold.Yaml
