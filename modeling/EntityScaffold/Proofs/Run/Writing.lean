import EntityScaffold.Proofs.FileTree.Room
import EntityScaffold.Proofs.Run.Files
import Mathlib.Logic.Function.Basic

/-
A file is written as a whole or not at all, atomically or not: what a write does to the files of a tree, and when the two
ways of writing agree.
-/

namespace EntityScaffold

namespace FileTree

variable {t u : FileTree} {l : Location} {made : Set Location}

/-- The content of the file at a location, if one stands there. -/
def file? (t : FileTree) (l : Location) : Option Octets :=
  match t.get? l with
  | some (.file content) => some content
  | _ => none

theorem file?_put (hl : l ≠ []) (content : Octets) :
    (t.put l (.file content)).file? = Function.update t.file? l (some content) := by
  funext m
  by_cases hm : m = l
  · subst hm
    rw [file?, get?_put_self hl, Function.update_self]
  · rw [file?, get?_put_of_ne hm, Function.update_of_ne hm, file?]

theorem Change.file?_eq (h : Change made ∅ t u) : u.file? = t.file? := by
  funext l
  rcases h.nodes l with same | ⟨-, before, after⟩ | ⟨hl, -, -⟩
  · rw [file?, file?, same]
  · rw [file?, file?, before, after]
  · exact absurd hl (Set.notMem_empty l)

end FileTree

namespace Run

open FileTree (longestName longestPath)

variable {t u : FileTree} {p : Path} {content : Text} {atomic : Bool} {n : Nat} {f : Failure}

theorem FileWritten.of_ok (h : FileWritten t p content atomic (.ok n) u) :
    t.Takes p atomic ∧ n = (Utf8.encode content).length ∧ u.read p = .ok (Utf8.encode content) ∧
      u.file? = Function.update t.file? (t.locationOf p) (some (Utf8.encode content)) := by
  obtain ⟨whole, standing, there⟩ := h.standing
  cases h with
  | written takes change folders =>
    have named : p.HasName := takes.admits.named
    refine ⟨takes, rfl, whole.read_there takes.admits.fits named standing there, ?_⟩
    rw [FileTree.file?_put (FileTree.locationOf_ne_nil named), change.file?_eq]

theorem FileWritten.of_error (h : FileWritten t p content atomic (.error f) u) :
    ¬ t.Takes p atomic ∧ u.file? = t.file? := by
  cases h with
  | refused change shut refuses => exact ⟨shut, change.file?_eq⟩

/-- A write is all or nothing: the path holds the text's octets, their number is given, and every other file is as before;
or every file is. -/
theorem writeFile_all_or_nothing (t : FileTree) (p : Path) (content : Text) (atomic : Bool) :
    (writeFile p content atomic).Ensures t fun r u =>
      match r with
      | .ok n => n = (Utf8.encode content).length ∧ u.read p = .ok (Utf8.encode content) ∧
          u.file? = Function.update t.file? (t.locationOf p) (some (Utf8.encode content))
      | .error _ => u.file? = t.file? := by
  refine (ensures_fileWritten t p content atomic).mono ?_
  rintro (f | n) u written
  · exact written.of_error.2
  · exact written.of_ok.2

theorem ensures_ok_iff (t : FileTree) (p : Path) (content : Text) (atomic : Bool) :
    (writeFile p content atomic).Ensures t fun r _ =>
      ∀ n, r = .ok n ↔ t.Takes p atomic ∧ n = (Utf8.encode content).length := by
  refine (ensures_fileWritten t p content atomic).mono ?_
  rintro (f | m) u written n
  · simp [written.of_error.1]
  · obtain ⟨takes, rfl, -⟩ := written.of_ok
    simp [takes, eq_comm]

/-- The two ways of writing agree on every name that leaves room for fourteen octets more, in a folder whose whole path leaves
room for the temporary file's; elsewhere only the plain write succeeds. -/
theorem writeFile_atomic_iff (w : World) (p : Path) (content : Text) :
    (∀ n, (World.run (writeFile p content true) w).1 = .ok n ↔
      (World.run (writeFile p content false) w).1 = .ok n ∧ (Utf8.encode p.name).length + 14 ≤ longestName ∧
        (Utf8.encode (w.tree.wholeTemporary p).text).length < longestPath) ∧
    (∀ n, (World.run (writeFile p content true) w).1 = .ok n →
      (World.run (writeFile p content true) w).2.tree.file? =
        (World.run (writeFile p content false) w).2.tree.file?) := by
  have ok_iff (atomic : Bool) := ensures_ok_iff w.tree p content atomic w rfl
  have agree (n : Nat) : (World.run (writeFile p content true) w).1 = .ok n ↔
      (World.run (writeFile p content false) w).1 = .ok n ∧ (Utf8.encode p.name).length + 14 ≤ longestName ∧
        (Utf8.encode (w.tree.wholeTemporary p).text).length < longestPath := by
    have room : w.tree.Takes p true ↔ w.tree.Takes p false ∧ w.tree.HasRoom p :=
      ⟨fun accepts => ⟨accepts.admits, accepts.toHasRoom⟩, fun ⟨admits, room⟩ => ⟨admits, room⟩⟩
    rw [ok_iff true, ok_iff false, room, FileTree.hasRoom_iff]
    tauto
  refine ⟨agree, fun n atomic => ?_⟩
  have files (way : Bool) (done : (World.run (writeFile p content way) w).1 = .ok n) :
      (World.run (writeFile p content way) w).2.tree.file? =
        Function.update w.tree.file? (w.tree.locationOf p) (some (Utf8.encode content)) := by
    have written := ensures_fileWritten w.tree p content way w rfl
    rw [done] at written
    exact written.of_ok.2.2.2
  rw [files true atomic, files false ((agree n).1 atomic).1]

/-- A name of 250 octets: a file has room for it, and its temporary file has not. -/
def longName : Path := Path.ofText (List.replicate 250 'a')

theorem longName_only_plain :
    (World.run (writeFile longName "x".toList false) { tree := .empty }).1.toOption = some 1 ∧
      (World.run (writeFile longName "x".toList true) { tree := .empty }).1.toOption = none := by
  decide +kernel

/-- A working folder whose path has 4080 octets, and nothing else. -/
def farTree : FileTree :=
  let way := List.replicate 40 (List.replicate 101 'a')
  { nodes := (List.range 40).map fun n => (way.take (n + 1), .folder), work := way }

/-- In a far folder, a file with a name of one octet is only written plainly. -/
example :
    (World.run (writeFile (Path.ofText ['b']) "x".toList false) { tree := farTree }).1.toOption = some 1 ∧
      (World.run (writeFile (Path.ofText ['b']) "x".toList true) { tree := farTree }).1.toOption = none := by
  decide +kernel

end Run

end EntityScaffold
