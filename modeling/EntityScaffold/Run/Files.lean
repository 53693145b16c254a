import EntityScaffold.Job.Basic
import EntityScaffold.Text.Lines

/- Reading and writing text files, and making the folders they go to. -/

namespace EntityScaffold.Run

def filesSource : Text := "crudgen.utils".toList

def textOfOctets (content : Octets) : Except Failure Text :=
  match Utf8.decode content with
  | .ok t => .ok (Text.unifyLineEnds t)
  | .error fault => .error (.undecodable fault)

def readText (p : Path) : Job Text := do
  let content ← Job.read p
  Job.ofExcept (textOfOctets content)

/-- A refusal to make a folder does not matter when the folder is there. -/
def unlessFolder (p : Path) (f : Failure) : Job Unit := do
  if f.isSystem then
    match ← Job.look p with
    | .folder => pure ()
    | _ => .failed f
  else .failed f

/-- Makes a folder in a folder that has to be there, unless it is there itself. -/
def makeFolderOnce (p : Path) : Job Unit := do
  match ← (Job.makeFolder p).attempt with
  | .ok () => pure ()
  | .error f => if f.isMissing then .failed f else unlessFolder p f

/-- Makes a folder and those it lies in, as many as the number says. -/
def makeFolders : Nat → Path → Job Unit
  | 0, p => makeFolderOnce p
  | n + 1, p => do
    match ← (Job.makeFolder p).attempt with
    | .ok () => pure ()
    | .error f =>
      if f.isMissing then do
        makeFolders n p.parent
        makeFolderOnce p
      else unlessFolder p f

/-- Makes a folder and all those it lies in, unless they are there. -/
def ensureFolder (p : Path) : Job Unit := do
  makeFolders p.parts.length p
  Job.note (Log.debug filesSource ("Ensured directory exists: ".toList ++ p.text))

/-- Replaces a file in one step: a temporary file in the same folder is filled and then takes the file's place. It is removed
again if that fails. -/
def replaceFile (p : Path) (octets : Octets) : Job Unit := do
  let place ← Job.temporary p
  let moved : Job Unit := do
    Job.fill place octets
    let _ ← Job.look p
    Job.move place p
  match ← moved.attempt with
  | .ok () => pure ()
  | .error f => do
    Job.discard place
    .failed f

/-- Writes a text to a file and gives the number of its octets. The file's folder is made if need be; an atomic write replaces the
file in one step. -/
def writeFile (p : Path) (content : Text) (atomic : Bool) : Job Nat := do
  ensureFolder p.parent
  let octets := Utf8.encode content
  if atomic then replaceFile p octets else Job.write p octets
  Job.note (Log.debug filesSource
    ("Wrote ".toList ++ Text.ofNat octets.length ++ " bytes to ".toList ++ p.text))
  return octets.length

end EntityScaffold.Run
