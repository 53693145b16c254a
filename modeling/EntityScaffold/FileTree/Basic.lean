import EntityScaffold.Path
import EntityScaffold.FileTree.Refusal
import EntityScaffold.Text.Utf8

/-
A tree of folders and files, held as a list of locations. The root is a folder; a location below a missing one never
occurs, since a node is only ever put into a folder. One folder is the working folder, from which paths without a root
start.
-/

namespace EntityScaffold

abbrev Location := List Text

inductive Node where
  | folder
  | file (content : Octets)
  deriving DecidableEq, Repr

/-- A tree, with its working folder. -/
structure FileTree where
  nodes : List (Location × Node)
  work : Location
  deriving DecidableEq, Repr

namespace FileTree

/-- A tree with an empty working folder, at the path by which the system shows each program its own. -/
def empty : FileTree where
  nodes := [
    (["proc".toList], .folder),
    (["proc".toList, "self".toList], .folder),
    (["proc".toList, "self".toList, "cwd".toList], .folder)]
  work := ["proc".toList, "self".toList, "cwd".toList]

def get? (t : FileTree) (at_ : Location) : Option Node :=
  if at_.isEmpty then some .folder else (t.nodes.find? fun e => e.1 = at_).map (·.2)

/-- The tree with a node at a location, in the place of whatever stood there itself. -/
def put (t : FileTree) (at_ : Location) (n : Node) : FileTree :=
  { t with nodes := t.nodes.filter (fun e => e.1 ≠ at_) ++ [(at_, n)] }

def remove (t : FileTree) (at_ : Location) : FileTree :=
  { t with nodes := t.nodes.filter fun e => !at_.isPrefixOf e.1 }

/-- The files below the working folder: the way from there to each, and its content. -/
def workFiles (t : FileTree) : List (Location × Octets) :=
  t.nodes.filterMap fun e =>
    match t.work.isPrefixOf? e.1, e.2 with
    | some way, .file content => some (way, content)
    | _, _ => none

theorem get?_put_of_ne {t : FileTree} {l m : Location} (h : l ≠ m) (n : Node) :
    (t.put m n).get? l = t.get? l := by
  unfold get? put
  split
  · rfl
  · congr 1
    rw [List.find?_append, List.find?_filter]
    have hlast : List.find? (fun e => decide (e.1 = l)) [(m, n)] = none := by simp [Ne.symm h]
    rw [hlast, Option.or_none]
    congr 1
    funext e
    by_cases he : e.1 = l <;> simp [he, h]

theorem get?_put_self {t : FileTree} {l : Location} (h : l ≠ []) (n : Node) : (t.put l n).get? l = some n := by
  unfold get? put
  rw [if_neg (by simpa using h), List.find?_append, List.find?_filter]
  have hnone : t.nodes.find? (fun _ => false) = none := by simp
  simp [hnone]

end FileTree

end EntityScaffold
