import EntityScaffold.CommandLine.Complaint
import EntityScaffold.Text.Digit

/-
How the words of a command line read, each on its own: as an operand or as a switch. A long name may be cut short where
only one name starts so; a value may stand in the switch's own word.
-/

namespace EntityScaffold.CommandLine

inductive Word where
  | operand
  | mark
  | stranger
  /-- A switch, with what its own word holds after its name. -/
  | switch (s : Switch) (isLong : Bool) (attached : Option Text)
  deriving DecidableEq, Repr

namespace Word

def isDigits (t : Text) : Bool :=
  let rest := t.dropWhile Text.isDecimalDigit
  (rest.isEmpty || rest = ['\n']) && t.length ≠ rest.length

/-- A number below zero, with or without a fraction; it reads as an operand. -/
def isNegativeNumber : Text → Bool
  | '-' :: r =>
    isDigits r ||
      match r.dropWhile Text.isDecimalDigit with
      | '.' :: fraction => isDigits fraction
      | _ => false
  | _ => false

/-- A word up to its first equals sign, and the value after it. -/
def splitValue (t : Text) : Text × Option Text :=
  match Text.cut? ['='] t with
  | some (before, _ :: value) => (before, some value)
  | _ => (t, none)

def isLongName (t : Text) : Bool := "--".toList.isPrefixOf t

/-- The readings of a word that is no whole name: a long name cut short, or a short name with its value. -/
def candidates (t : Text) : List (Text × Word) :=
  if isLongName t then
    let (start, value) := splitValue t
    (Switch.startingWith start).map fun e => (e.1, .switch e.2 true value)
  else
    match Switch.named? (t.take 2) with
    | some s => [(t.take 2, .switch s false (some (t.drop 2)))]
    | none => []

/-- Reads a word with a dash in front that is no whole name. -/
def readAbbreviated (t : Text) : Except Complaint Word :=
  match candidates t with
  | [(_, w)] => .ok w
  | [] => .ok (if isNegativeNumber t || t.contains ' ' then .operand else .stranger)
  | several => .error (.ambiguous t (several.map (·.1)))

def read (t : Text) : Except Complaint Word :=
  if t.head? ≠ some '-' then .ok .operand
  else match Switch.named? t with
    | some s => .ok (.switch s (isLongName t) none)
    | none =>
      if t = ['-'] then .ok .operand
      else match splitValue t with
        | (name, some value) =>
          match Switch.named? name with
          | some s => .ok (.switch s (isLongName name) (some value))
          | none => readAbbreviated t
        | (_, none) => readAbbreviated t

/-- Reads all words; after two dashes every word is an operand. -/
def readAll : List Text → Except Complaint (List (Text × Word))
  | [] => .ok []
  | t :: ts =>
    if t = "--".toList then .ok ((t, .mark) :: ts.map fun t => (t, .operand))
    else do
      let w ← read t
      let ws ← readAll ts
      return (t, w) :: ws

end Word

end EntityScaffold.CommandLine
