import EntityScaffold.CommandLine.Program
import Std.Time.Format

/- The program: its job run on the file system and the standard streams. -/

namespace EntityScaffold.Main

def codeOf : IO.Error → UInt32 × String
  | .alreadyExists _ code details => (code, details)
  | .otherError code details => (code, details)
  | .resourceBusy code details => (code, details)
  | .resourceVanished code details => (code, details)
  | .unsupportedOperation code details => (code, details)
  | .hardwareFault code details => (code, details)
  | .unsatisfiedConstraints code details => (code, details)
  | .illegalOperation code details => (code, details)
  | .protocolError code details => (code, details)
  | .timeExpired code details => (code, details)
  | .interrupted _ code details => (code, details)
  | .noFileOrDirectory _ code details => (code, details)
  | .invalidArgument _ code details => (code, details)
  | .permissionDenied _ code details => (code, details)
  | .resourceExhausted _ code details => (code, details)
  | .inappropriateType _ code details => (code, details)
  | .noSuchThing _ code details => (code, details)
  | .unexpectedEof => (5, "Input/output error")
  | .userError details => (5, details)

/-- The reason that an error stands for; some requests give its number below zero, wrapped around. -/
def reasonOf (e : IO.Error) : FileTree.Reason :=
  let (wrapped, details) := codeOf e
  let code := if wrapped < 2147483648 then wrapped else 0 - wrapped
  let known : List FileTree.Reason := [.missing, .busy, .exists, .notFolder, .isFolder, .nameTooLong]
  (known.find? fun r => r.code = code.toNat).getD (.other code.toNat details.toList)

/-- Makes a request of the file system for a path; a refusal names the path, and the target of a move. -/
def request {α : Type} (p shown : Text) (target : Option Text) (act : String → IO α) :
    IO (Except FileTree.Refusal α) := do
  if p.contains '\x00' then return .error .nullInPath
  try
    return .ok (← act (String.ofList p))
  catch e => return .error (.system (reasonOf e) shown target)

def look (p : Path) : IO (Except FileTree.Refusal FileTree.Sight) := do
  let here ← IO.currentDir
  let seen ← request p.text p.text none fun name => (here / name).metadata
  match seen with
  | .ok found => return .ok (if found.type == .dir then .folder else .file)
  | .error (.system .missing _ _) => return .ok .nothing
  | .error (.system .notFolder _ _) => return .ok .nothing
  | .error .nullInPath => return .ok .nothing
  | .error r => return .error r

def octets (bytes : ByteArray) : Octets := bytes.toList

def bytes (content : Octets) : ByteArray := ⟨content.toArray⟩

def randomMiddle : IO Text := do
  let letters := "abcdefghijklmnopqrstuvwxyz0123456789_".toList
  (List.range FileTree.anyMiddle.length).mapM fun _ => do
    let n ← IO.rand 0 (letters.length - 1)
    return letters.getD n '_'

/-- The path of a location, from the root on. -/
def wholePath (l : Location) : Text := '/' :: Text.joinWith ['/'] l

/-- Makes a new file next to a path; a name that is taken is drawn again. -/
partial def makeTemporary (p : Path) : IO (Except FileTree.Refusal Location) := do
  let name := FileTree.temporaryName (← randomMiddle) p.name
  let shown := (p.parent / Path.ofText name).text
  let found ← request p.parent.text shown none fun folder => do
    return (Path.ofText (← IO.FS.realPath folder).toString.toList).parts
  match found with
  | .error r => return .error r
  | .ok folder =>
    let place := folder ++ [name]
    let made ← request (wholePath place) (wholePath place) none fun file => do
      let _ ← IO.FS.Handle.mk file .writeNew
    match made with
    | .ok () => return .ok place
    | .error (.system .exists _ _) => makeTemporary p
    | .error r => return .error r

def fill (place : Location) (content : Octets) : IO Unit :=
  IO.FS.writeBinFile (String.ofList (wholePath place)) (bytes content)

def move (place : Location) (p : Path) : IO (Except FileTree.Refusal Unit) :=
  request p.text (wholePath place) (some p.text) fun target => IO.FS.rename (String.ofList (wholePath place)) target

def discard (place : Location) : IO Unit := do
  try
    IO.FS.removeFile (String.ofList (wholePath place))
  catch _ => return ()

def two (n : Int) : String := if n < 10 then "0" ++ toString n else toString n

def clock : IO Log.Clock := do
  let t ← Std.Time.PlainTime.now
  return Log.Clock.at (two t.hour.val ++ ":" ++ two t.minute.val ++ ":" ++ two t.second.val).toList

def display (stream : Stream) (t : Text) : IO Unit := do
  let out ← match stream with
    | .output => IO.getStdout
    | .errors => IO.getStderr
  out.putStr (String.ofList t)
  out.flush

partial def askName (label : Text) : IO (Option Text) := do
  display .output (Prompt.question label)
  let line ← (← IO.getStdin).getLine
  if line.isEmpty then return none
  match Prompt.name? line.toList with
  | some n => return some n
  | none =>
    display .errors (Prompt.complaint label ++ ['\n'])
    askName label

def answer (threshold : Option Log.Severity) : (r : Request) → IO r.Answer
  | .look p => look p
  | .read p => request p.text p.text none fun name => do return octets (← IO.FS.readBinFile name)
  | .makeFolder p => request p.text p.text none fun name => IO.FS.createDir name
  | .write p content => request p.text p.text none fun name => IO.FS.writeBinFile name (bytes content)
  | .temporary p => makeTemporary p
  | .fill place content => fill place content
  | .move place p => move place p
  | .discard place => discard place
  | .time => IO.monoNanosNow
  | .note e => do
    if e.isShown threshold then display .errors (e.line (← clock) ++ ['\n'])
  | .print stream t => display stream t
  | .name label => askName label

def run {α : Type} (threshold : Option Log.Severity) : Job α → IO (Except Failure α)
  | .done a => return .ok a
  | .failed f => return .error f
  | .ask r next => do run threshold (next (← answer threshold r))

end EntityScaffold.Main

/-- Runs the program for the words of its command line. -/
def main (words : List String) : IO UInt32 := do
  let words := words.map String.toList
  let program := EntityScaffold.CommandLine.Program.run (← EntityScaffold.Main.clock) words
  match ← EntityScaffold.Main.run (EntityScaffold.CommandLine.Program.threshold words) program with
  | .ok outcome => return outcome.status.toUInt32
  | .error f =>
    EntityScaffold.Main.display .errors (f.message ++ ['\n'])
    return 1
