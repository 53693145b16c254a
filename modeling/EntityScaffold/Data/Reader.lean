import EntityScaffold.Data.Call
import EntityScaffold.Data.Spelling
import EntityScaffold.Decimal.Written
import EntityScaffold.Text.Quoted

/-
Readers: how a datum is checked for being a text, an integer, a truth value, a sequence or a record. Integers and truth
values are read leniently: from texts and from whole numbers of the other kinds.
-/

namespace EntityScaffold.Data

/-- A reader takes a datum and gives its value or its issues. -/
abbrev Reader (α : Type) := Datum → Checked α

namespace Reader

open Checked (refuse)

variable {α : Type}

/-- A text, or octets that are one. -/
def text : Reader Text
  | .text t => .good t
  | .octets bs =>
    match Utf8.decode bs with
    | .ok t => .good t
    | .error _ => refuse .notUnicode
  | _ => refuse .notText

def nonEmptyText : Reader Text := fun d =>
  (text d).thenCheck fun t => if t.isEmpty then refuse .emptyText else .good t

/-- The first integer that no longer fits into sixty-four bits with a sign. -/
def wordLimit : Int := 9223372036854775808

def isWord (i : Int) : Bool := -wordLimit ≤ i && i < wordLimit

/-- The integer that a number is; one of sixty-four bits and a sign. -/
def integerOfNumber (b : Decimal.Binary) : Checked Int :=
  match b with
  | .finite _ _ _ =>
    match b.integer? with
    | none => refuse .fractional
    | some i => if -wordLimit < i && i < wordLimit then .good i else refuse .oversizedInteger
  | _ => refuse .notFinite

def integerOfText (t : Text) : Checked Int :=
  match Spelling.integer t with
  | .ok i => .good i
  | .error cause => refuse cause

def integer : Reader Int
  | .bool b => .good (if b then 1 else 0)
  | .int i => .good i
  | .float x => integerOfNumber (.ofFloat x)
  | .text t => integerOfText t
  | .octets bs =>
    match Utf8.decode bs with
    | .ok t => integerOfText t
    | .error _ => refuse .unreadableInteger
  | _ => refuse .notInteger

/-- An integer that is not below the least one. -/
def integerFrom (least : Int) : Reader Int := fun d =>
  (integer d).thenCheck fun i => if i < least then refuse (.below least) else .good i

def booleanOfText (t : Text) : Checked Bool :=
  let low := String.ofList (t.map Char.toLower)
  if ["1", "t", "y", "on", "yes", "true"].contains low then .good true
  else if ["0", "f", "n", "no", "off", "false"].contains low then .good false
  else refuse .unreadableBoolean

def booleanOfInteger (i : Int) : Checked Bool :=
  if i = 0 then .good false
  else if i = 1 then .good true
  else if isWord i then refuse .unreadableBoolean
  else refuse .notBoolean

def boolean : Reader Bool
  | .bool b => .good b
  | .int i => booleanOfInteger i
  | .float x =>
    match (Decimal.Binary.ofFloat x).integer? with
    | some i => booleanOfInteger i
    | none => refuse .notBoolean
  | .text t => booleanOfText t
  | .octets bs =>
    match Utf8.decode bs with
    | .ok t => booleanOfText t
    | .error _ => refuse .unreadableBoolean
  | _ => refuse .notBoolean

def items (reader : Reader α) (ds : List Datum) : List (Checked α) :=
  ds.zipIdx.map fun p => (reader p.1).within (.index p.2)

def goods (cs : List (Checked α)) : List α :=
  cs.filterMap fun
    | .good a => some a
    | .bad _ => none

def collect (cs : List (Checked α)) : Checked (List α) :=
  match cs.flatMap Checked.issues with
  | [] => .good (goods cs)
  | is => .bad is

def sequence? : Datum → Option (List Datum)
  | .list ds => some ds
  | .set ds => some ds
  | _ => none

def tuple (reader : Reader α) : Reader (List α) := fun d =>
  match sequence? d with
  | some ds => collect (items reader ds)
  | none => refuse .notTuple

/-- A fixed sequence with so many good items at least. -/
def tupleFrom (least : Nat) (reader : Reader α) : Reader (List α) := fun d =>
  match sequence? d with
  | none => refuse .notTuple
  | some ds =>
    let read := items reader ds
    let found := (goods read).length
    if found < least then .bad (read.flatMap Checked.issues ++ [⟨[], .tooFew least found⟩])
    else collect read

def list (reader : Reader α) : Reader (List α) := fun d =>
  match sequence? d with
  | some ds => collect (items reader ds)
  | none => refuse .notList

def optional (reader : Reader α) : Reader (Option α)
  | .null => .good none
  | d => (reader d).map some

abbrev Entries := List (Datum × Datum)

def required (name : Text) (reader : Reader α) (entries : Entries) : Checked α :=
  match Datum.get? name entries with
  | some d => (reader d).within (.key name)
  | none => (refuse .missing).within (.key name)

def withDefault (name : Text) (default : α) (reader : Reader α) (entries : Entries) : Checked α :=
  match Datum.get? name entries with
  | some d => (reader d).within (.key name)
  | none => .good default

/-- An integer that has too many digits to be shown is only told to be one. -/
def integerStep (i : Int) : Step :=
  if isWord i then .number i
  else if Text.isShowable i then .key (Text.ofInt i)
  else .key "<unprintable int object>".toList

def oddKeyStep : Datum → Step
  | .bool b => .number (if b then 1 else 0)
  | .int i => integerStep i
  | .null => .key "None".toList
  | .float x => .key (Decimal.Binary.ofFloat x).text
  | .day d => .key (call "date" (dayParts d))
  | .moment m => .key (momentCall m)
  | .octets bs => .key (Text.quotedOctets bs)
  | d => .key d.kindName

def strangers (known : List Text) (entries : Entries) : List Issue :=
  entries.filterMap fun
    | (.text k, _) => if known.contains k then none else some ⟨[.key k], .unexpected⟩
    | (k, _) => some ⟨[oddKeyStep k], .keyNotText⟩

/-- A record: its known entries are read in their order, and then all others are refused. -/
def record (name : Text) (known : List Text) (fields : Entries → Checked α) : Reader α
  | .map entries =>
    match (fields entries), strangers known entries with
    | c, [] => c
    | c, is => .bad (c.issues ++ is)
  | _ => refuse (.notModel name)

end Reader

end EntityScaffold.Data
