import EntityScaffold.FileTree.Requests

/-
Temporary files: a new file next to a path, under a name that nothing has there, which is filled and then takes the place
of what stands at the path. Until then it is known by its location, and it can be removed.
-/

namespace EntityScaffold.FileTree

/-- The name of a temporary file next to a file; its middle keeps it apart from other files. -/
def temporaryName (middle name : Text) : Text :=
  ".".toList ++ name ++ ".".toList ++ middle ++ ".tmp".toList

/-- The middle that stands for the eight characters that differ from run to run. -/
def anyMiddle : Text := List.replicate 8 'X'

def middle (tries : Nat) : Text := anyMiddle ++ List.replicate tries 'X'

/-- The first middle with which nothing in a folder has the name. -/
def freeMiddle (t : FileTree) (folder : Location) (name : Text) : Text :=
  let middles := (List.range (t.nodes.length + 1)).map middle
  (middles.find? fun m => (t.get? (folder ++ [temporaryName m name])).isNone).getD anyMiddle

/-- Parts with each two dots taken together with the part before them. -/
def settled (parts : List Text) : List Text :=
  parts.foldl (fun way part => if part = "..".toList then way.dropLast else way ++ [part]) []

/-- The whole path of the temporary file next to a path, from the root on. -/
def wholeTemporary (t : FileTree) (p : Path) : Path where
  root := if p.isAbsolute then p.root else .slash
  parts := settled ((if p.isAbsolute then [] else t.work) ++ p.parent.parts) ++ [temporaryName anyMiddle p.name]

/-- The path of the temporary file next to a path, as it is shown: from the working folder where it lies below that. -/
def temporaryPath (t : FileTree) (p : Path) : Text :=
  match t.work.isPrefixOf? (t.wholeTemporary p).parts with
  | some way => Text.joinWith ['/'] way
  | none => (t.wholeTemporary p).text

/-- Makes an empty file next to a path, and tells where it stands. Neither its name nor its whole path must be too long, and
the folder has to be there. -/
def makeTemporary (t : FileTree) (p : Path) : Except Refusal (Location × FileTree) :=
  let refuse (reason : Reason) : Except Refusal (Location × FileTree) :=
    .error (.system reason (t.temporaryPath p) none)
  if p.text.contains '\x00' then .error .nullInPath
  else if longestPath ≤ (Utf8.encode (t.wholeTemporary p).text).length then refuse .nameTooLong
  else if longestName < (Utf8.encode (temporaryName anyMiddle p.name)).length then refuse .nameTooLong
  else
    match t.spot p.parent with
    | .error (.system reason _ _) => refuse reason
    | .error .nullInPath => .error .nullInPath
    | .ok s =>
      match s.node with
      | none => refuse .missing
      | some (.file _) => refuse .notFolder
      | some .folder =>
        let place := s.location ++ [temporaryName (t.freeMiddle s.location p.name) p.name]
        .ok (place, t.put place (.file []))

/-- Fills a temporary file; one that is no longer there stays away. -/
def fill (t : FileTree) (place : Location) (content : Octets) : FileTree :=
  match t.get? place with
  | some (.file _) => t.put place (.file content)
  | _ => t

def unlink (t : FileTree) (place : Location) : FileTree :=
  { t with nodes := t.nodes.filter fun e => e.1 ≠ place }

/-- Moves a temporary file to the path that it was made for, in the place of a file that stands there. -/
def move (t : FileTree) (place : Location) (p : Path) : Except Refusal FileTree :=
  let refuse (reason : Reason) : Except Refusal FileTree := .error (.system reason (t.temporaryPath p) (some p.text))
  match t.get? place with
  | some (.file content) =>
    match t.spot p with
    | .error (.system reason _ _) => refuse reason
    | .error .nullInPath => .error .nullInPath
    | .ok s =>
      if !s.isNamed then refuse .busy
      else match s.node with
        | some .folder => refuse .isFolder
        | _ => .ok ((t.unlink place).put s.location (.file content))
  | _ => refuse .missing

def discard (t : FileTree) (place : Location) : FileTree :=
  match t.get? place with
  | some (.file _) => t.unlink place
  | _ => t

end EntityScaffold.FileTree
