import EntityScaffold.Failure
import EntityScaffold.FileTree.Temporary
import EntityScaffold.Log

/-
Jobs: programs that ask for files, times and input lines, report what they do, and may fail. A job is data; what its
requests are answered with is decided by whoever runs it.
-/

namespace EntityScaffold

/-- Where a job shows text. -/
inductive Stream where
  | output
  | errors
  deriving DecidableEq, Repr

inductive Request where
  | look (p : Path)
  | read (p : Path)
  | makeFolder (p : Path)
  | write (p : Path) (content : Octets)
  /-- A new temporary file next to a path: where it stands. -/
  | temporary (p : Path)
  | fill (place : Location) (content : Octets)
  | move (place : Location) (p : Path)
  | discard (place : Location)
  | time
  | note (e : Log.Entry)
  | print (stream : Stream) (t : Text)
  /-- A name that a person gives, however often it has to be asked for, or nothing at the end of the input. -/
  | name (label : Text)

@[reducible] def Request.Answer : Request → Type
  | look _ => Except FileTree.Refusal FileTree.Sight
  | read _ => Except FileTree.Refusal Octets
  | makeFolder _ => Except FileTree.Refusal Unit
  | write _ _ => Except FileTree.Refusal Unit
  | temporary _ => Except FileTree.Refusal Location
  | fill _ _ => Unit
  | move _ _ => Except FileTree.Refusal Unit
  | discard _ => Unit
  | time => Nat
  | note _ => Unit
  | print _ _ => Unit
  | name _ => Option Text

/-- A job with a result: done, failed, or one request and what follows its answer. -/
inductive Job (α : Type) where
  | done (a : α)
  | failed (f : Failure)
  | ask (r : Request) (next : r.Answer → Job α)

namespace Job

variable {α β : Type}

/-- A second job that follows the result of the first; a failure ends both. -/
def bind (j : Job α) (k : α → Job β) : Job β :=
  match j with
  | done a => k a
  | failed f => failed f
  | ask r next => ask r fun answer => (next answer).bind k

instance : Monad Job where
  pure := done
  bind := bind

def attempt : Job α → Job (Except Failure α)
  | done a => done (.ok a)
  | failed f => done (.error f)
  | ask r next => ask r fun answer => (next answer).attempt

def ofExcept : Except Failure α → Job α
  | .ok a => done a
  | .error f => failed f

def granted : Except FileTree.Refusal α → Job α
  | .ok a => done a
  | .error r => failed (.refused r)

def look (p : Path) : Job FileTree.Sight := ask (.look p) granted

def read (p : Path) : Job Octets := ask (.read p) granted

def makeFolder (p : Path) : Job Unit := ask (.makeFolder p) granted

def write (p : Path) (content : Octets) : Job Unit := ask (.write p content) granted

def temporary (p : Path) : Job Location := ask (.temporary p) granted

def fill (place : Location) (content : Octets) : Job Unit := ask (.fill place content) done

def move (place : Location) (p : Path) : Job Unit := ask (.move place p) granted

def discard (place : Location) : Job Unit := ask (.discard place) done

def time : Job Nat := ask .time done

def note (e : Log.Entry) : Job Unit := ask (.note e) done

def notes : List Log.Entry → Job Unit
  | [] => done ()
  | e :: es => ask (.note e) fun _ => notes es

def print (stream : Stream) (t : Text) : Job Unit := ask (.print stream t) done

def name (label : Text) : Job Text :=
  ask (.name label) fun
    | some n => done n
    | none => failed (.inputEnded label)

/-- Reports how long a job took, whether it fails or not. -/
def timed (label : Text) (j : Job α) : Job α := do
  let start ← time
  let result ← j.attempt
  let stop ← time
  note ⟨.info, "crudgen.utils".toList, .stage label (stop - start)⟩
  ofExcept result

end Job

end EntityScaffold
