import EntityScaffold.Data.Checked
import EntityScaffold.Text.Blank

/-
Integers that texts spell. A plain spelling is digits without a leading zero, perhaps after a minus sign. Any other text is
tidied first: the blanks around it, a plus sign, leading zeros, a fraction of zeros and the underscores within it are dropped.
-/

namespace EntityScaffold.Data.Spelling

def isNumberBlank (c : Char) : Bool := Text.isBlank c && !(28 ≤ c.toNat && c.toNat ≤ 31)

def digitsValue (t : Text) : Nat := t.foldl (fun n c => 10 * n + (c.toNat - 48)) 0

/-- The most digits of an integer that is read. -/
def mostDigits : Nat := 4300

/-- The number that a plain spelling without a sign gives; its size is looked at before what follows the digits. -/
def plainNatural (t : Text) : Except Cause Nat :=
  let digits := t.takeWhile Char.isDigit
  if digits.isEmpty || (digits.head? = some '0' && digits.length ≠ 1) then .error .unreadableInteger
  else if mostDigits < digits.length then .error .oversizedInteger
  else if t.length ≠ digits.length then .error .unreadableInteger
  else .ok (digitsValue digits)

def plainInteger : Text → Except Cause Int
  | '-' :: r => (plainNatural r).map fun n => -(n : Int)
  | r => (plainNatural r).map fun n => (n : Int)

/-- The digits from the first one on that is not a leading zero; a single zero and a zero before a point stay. Underscores among
the leading zeros go with them, and a minus sign may follow them. -/
def withoutLeadingZeros? : Text → Option Text
  | [] => none
  | '0' :: r => afterZero ['0'] r
  | c :: r => if '1' ≤ c && c ≤ '9' then some (c :: r) else none
where
  /-- What remains after a zero or an underscore, which stands in front of the rest. -/
  afterZero (last : Text) : Text → Option Text
    | [] => some last
    | c :: r =>
      if c = '0' || c = '_' then afterZero [c] r
      else if ('1' ≤ c && c ≤ '9') || c = '-' then some (c :: r)
      else if c = '.' then some (last ++ c :: r)
      else none

/-- The text before a point, after which there are zeros only, and one at least; a text without a point is kept. -/
def withoutZeroFraction? (t : Text) : Option Text :=
  match t.dropWhile (· ≠ '.') with
  | [] => some t
  | _ :: fraction => if fraction.isEmpty || fraction.any (· ≠ '0') then none else some (t.takeWhile (· ≠ '.'))

/-- The text without its underscores, if each stands alone and within the text. -/
def withoutUnderscores (t : Text) : Text :=
  if t.head? = some '_' || t.getLast? = some '_' || Text.has t "__".toList then t else t.filter (· ≠ '_')

def tidy? (t : Text) : Option Text := do
  let (sign, body) := match Text.trim isNumberBlank t with
    | '+' :: r => ([], r)
    | '-' :: r => (['-'], r)
    | r => ([], r)
  let body ← withoutLeadingZeros? body
  let whole ← withoutZeroFraction? (sign ++ body)
  return withoutUnderscores whole

/-- The integer that a text spells, or why it spells none. -/
def integer (t : Text) : Except Cause Int :=
  match plainInteger t with
  | .error .unreadableInteger =>
    match tidy? t with
    | some s => plainInteger s
    | none => .error .unreadableInteger
  | r => r

end EntityScaffold.Data.Spelling
