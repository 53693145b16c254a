import EntityScaffold.FileTree.Basic

/-
What can be asked of a tree: to look at a path, to read a file, to make a folder, and to write a file. A path is followed
part by part: a part of the way that is missing or a file stops it.
-/

namespace EntityScaffold.FileTree

/-- The longest name of one part, in octets. -/
def longestName : Nat := 255

/-- The length that a whole path stays below, in octets. -/
def longestPath : Nat := 4096

/-- Where a path leads: a location, what stands there, and whether the path names it, which one that ends in two dots does not. -/
structure Spot where
  location : Location
  node : Option Node
  isNamed : Bool
  deriving DecidableEq, Repr

def follow (t : FileTree) (here : Location) : List Text → Except Reason Spot
  | [] => .ok ⟨here, some .folder, false⟩
  | part :: rest =>
    if part = "..".toList then follow t here.dropLast rest
    else if longestName < (Utf8.encode part).length then .error .nameTooLong
    else
      let next := here ++ [part]
      match t.get? next, rest with
      | node, [] => .ok ⟨next, node, true⟩
      | some .folder, _ :: _ => follow t next rest
      | some (.file _), _ :: _ => .error .notFolder
      | none, _ :: _ => .error .missing

def spot (t : FileTree) (p : Path) : Except Refusal Spot :=
  if p.text.contains '\x00' then .error .nullInPath
  else if longestPath ≤ (Utf8.encode p.text).length then .error (.system .nameTooLong p.text none)
  else
    match t.follow (if p.isAbsolute then [] else t.work) p.parts with
    | .ok s => .ok s
    | .error reason => .error (.system reason p.text none)

inductive Sight where
  | nothing
  | folder
  | file
  deriving DecidableEq, Repr

/-- What stands at a path. A way that breaks off shows nothing, and so does a path that never reaches the system. -/
def look (t : FileTree) (p : Path) : Except Refusal Sight :=
  match t.spot p with
  | .ok s =>
    match s.node with
    | none => .ok .nothing
    | some .folder => .ok .folder
    | some (.file _) => .ok .file
  | .error (.system .missing _ _) => .ok .nothing
  | .error (.system .notFolder _ _) => .ok .nothing
  | .error .nullInPath => .ok .nothing
  | .error r => .error r

def read (t : FileTree) (p : Path) : Except Refusal Octets := do
  let s ← t.spot p
  match s.node with
  | some (.file content) => .ok content
  | some .folder => .error (.system .isFolder p.text none)
  | none => .error (.system .missing p.text none)

def makeFolder (t : FileTree) (p : Path) : Except Refusal FileTree := do
  let s ← t.spot p
  match s.node with
  | some _ => .error (.system .exists p.text none)
  | none => .ok (t.put s.location .folder)

def write (t : FileTree) (p : Path) (content : Octets) : Except Refusal FileTree := do
  let s ← t.spot p
  match s.node with
  | some .folder => .error (.system .isFolder p.text none)
  | _ => .ok (t.put s.location (.file content))

end EntityScaffold.FileTree
