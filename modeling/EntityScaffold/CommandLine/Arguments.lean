import EntityScaffold.CommandLine.Word
import EntityScaffold.Log

/-
What a command line asks for. The words are taken from left to right; the first one that cannot be taken decides, and words
that mean nothing are complained about at the end.
-/

namespace EntityScaffold.CommandLine

inductive Value where
  | text (t : Text)
  | nothing
  deriving DecidableEq, Repr

/-- The value in a switch's own word. Two dashes only mark the end of the switches, so that nothing stays of them. -/
def Value.ofAttached (t : Text) : Value := if t = "--".toList then .nothing else .text t

/-- The text of a value, if it has one that is not empty. -/
def Value.nonempty? : Value → Option Text
  | text (c :: r) => some (c :: r)
  | _ => none

/-- The values of the switches. -/
structure Arguments where
  model : Option Value := none
  permission : Option Value := none
  settings : Option Value := none
  projectRoot : Option Value := none
  schema : Option Value := none
  templates : Option Value := none
  dryRun : Bool := false
  manifest : Option Value := none
  verbosity : Nat := 0
  quiet : Bool := false
  deriving DecidableEq, Repr

/-- Why there are no arguments: something else is asked for, or the command line is wrong. -/
inductive Stop where
  | help
  | version
  | wrong (c : Complaint)
  deriving DecidableEq, Repr

structure Cluster where
  /-- The switches that are settled, with what is given to them. -/
  taken : List (Switch × Value)
  awaiting : Option Switch := none
  deriving DecidableEq, Repr

def Cluster.single (s : Switch) : Cluster :=
  if s.takesValue then { taken := [], awaiting := some s } else { taken := [(s, .nothing)] }

def Cluster.cons (s : Switch) (c : Cluster) : Cluster := { c with taken := (s, .nothing) :: c.taken }

/-- Reads what follows a short switch in its word: its value, or the letters of more short switches. -/
def cluster (s : Switch) : Text → Except Complaint Cluster
  | [] => if s.takesValue then .ok { taken := [(s, .text [])] } else .error (.valueIgnored s [])
  | c :: rest =>
    if s.takesValue then .ok { taken := [(s, .ofAttached (c :: rest))] }
    else match Switch.named? ['-', c] with
      | none => .error (.valueIgnored s (c :: rest))
      | some next =>
        match rest with
        | [] => .ok (.cons s (.single next))
        | d :: more => (cluster next (d :: more)).map (.cons s)

namespace Arguments

def threshold (a : Arguments) : Option Log.Severity :=
  if a.quiet then none
  else match a.verbosity with
    | 0 => some .warning
    | 1 => some .info
    | _ => some .debug

def take (a : Arguments) (given : Switch × Value) : Except Stop Arguments :=
  match given.1 with
  | .help => .error .help
  | .version => .error .version
  | .model => .ok { a with model := some given.2 }
  | .permission => .ok { a with permission := some given.2 }
  | .settings => .ok { a with settings := some given.2 }
  | .projectRoot => .ok { a with projectRoot := some given.2 }
  | .schema => .ok { a with schema := some given.2 }
  | .templates => .ok { a with templates := some given.2 }
  | .dryRun => .ok { a with dryRun := true }
  | .manifest => .ok { a with manifest := some given.2 }
  | .verbose => .ok { a with verbosity := a.verbosity + 1 }
  | .quiet => .ok { a with quiet := true }

def takeAll (a : Arguments) : List (Switch × Value) → Except Stop Arguments
  | [] => .ok a
  | g :: gs => (a.take g).bind fun a => takeAll a gs

def clusterOf (s : Switch) (isLong : Bool) : Option Text → Except Complaint Cluster
  | none => .ok (.single s)
  | some attached =>
    if isLong then
      if s.takesValue then .ok { taken := [(s, .ofAttached attached)] } else .error (.valueIgnored s attached)
    else cluster s attached

def orWrong {α : Type} : Except Complaint α → Except Stop α
  | .ok a => .ok a
  | .error c => .error (.wrong c)

/-- Takes words from left to right: the arguments, and the words that mean nothing. -/
def ofWords (a : Arguments) (strangers : List Text) : List (Text × Word) → Except Stop (Arguments × List Text)
  | [] => .ok (a, strangers)
  | (_, .switch s isLong attached) :: rest =>
    (orWrong (clusterOf s isLong attached)).bind fun c =>
      match c.awaiting with
      | none => (a.takeAll c.taken).bind fun a => ofWords a strangers rest
      | some last =>
        match rest with
        | (value, .operand) :: rest =>
          (a.takeAll (c.taken ++ [(last, .text value)])).bind fun a => ofWords a strangers rest
        | _ => .error (.wrong (.valueMissing last))
  | (t, _) :: rest => ofWords a (strangers ++ [t]) rest

def read (words : List Text) : Except Stop Arguments :=
  (orWrong (Word.readAll words)).bind fun ws =>
    (ofWords {} [] ws).bind fun r =>
      if r.2.isEmpty then .ok r.1 else .error (.wrong (.unrecognized r.2))

end Arguments

end EntityScaffold.CommandLine
