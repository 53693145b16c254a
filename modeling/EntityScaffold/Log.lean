import EntityScaffold.Text.Basic

/- What a run reports while it works: severities, entries, and the lines that show them. -/

namespace EntityScaffold.Log

inductive Severity where
  | debug
  | info
  | warning
  | error
  deriving DecidableEq, Repr

/-- The rank of a severity; an entry is shown when its rank reaches that of the threshold. -/
def Severity.rank : Severity → Nat
  | .debug => 0
  | .info => 1
  | .warning => 2
  | .error => 3

def Severity.name : Severity → Text
  | .debug => "DEBUG".toList
  | .info => "INFO".toList
  | .warning => "WARNING".toList
  | .error => "ERROR".toList

/-- What an entry says: a message, or how long a stage took. -/
inductive Wording where
  | plain (message : Text)
  | stage (label : Text) (nanoseconds : Nat)
  deriving DecidableEq, Repr

structure Entry where
  severity : Severity
  source : Text
  wording : Wording
  deriving DecidableEq, Repr

/-- How times are shown: the time of day, the length of a stage, and the length of a whole run. -/
structure Clock where
  timeOfDay : Text
  stageSeconds : Nat → Text
  totalSeconds : Nat → Text

/-- Nanoseconds as seconds with so many decimal places, at most nine, rounded to the nearest. -/
def seconds (places nanoseconds : Nat) : Text :=
  let unit := Nat.pow 10 (9 - places)
  let n := (nanoseconds + unit / 2) / unit
  let fraction := Text.ofNat (n % Nat.pow 10 places)
  Text.ofNat (n / Nat.pow 10 places) ++ '.' :: List.replicate (places - fraction.length) '0' ++ fraction

/-- Times with four places for a stage and three for a run. -/
def Clock.at (timeOfDay : Text) : Clock where
  timeOfDay := timeOfDay
  stageSeconds := seconds 4
  totalSeconds := fun n => seconds 3 n ++ ['s']

def Wording.text (clock : Clock) : Wording → Text
  | .plain message => message
  | .stage label nanoseconds =>
    "Timer [".toList ++ label ++ "]: ".toList ++ clock.stageSeconds nanoseconds ++ " seconds".toList

/-- An entry as a line of a log, without the line's end. -/
def Entry.line (clock : Clock) (e : Entry) : Text :=
  clock.timeOfDay ++ " │ ".toList ++ Text.padTo 8 e.severity.name ++ " │ ".toList ++ e.source ++
    " │ ".toList ++ e.wording.text clock

/-- Whether an entry is shown under a threshold; without one nothing is shown. -/
def Entry.isShown (threshold : Option Severity) (e : Entry) : Bool :=
  match threshold with
  | none => false
  | some s => s.rank ≤ e.severity.rank

def debug (source message : Text) : Entry := ⟨.debug, source, .plain message⟩

def info (source message : Text) : Entry := ⟨.info, source, .plain message⟩

def warning (source message : Text) : Entry := ⟨.warning, source, .plain message⟩

def error (source message : Text) : Entry := ⟨.error, source, .plain message⟩

end EntityScaffold.Log
