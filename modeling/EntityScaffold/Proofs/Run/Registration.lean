import EntityScaffold.Run.Registration
import EntityScaffold.Job.World
import EntityScaffold.Proofs.FileTree
import EntityScaffold.Proofs.Run.Files
import EntityScaffold.Proofs.SharedFile.Settled
import EntityScaffold.Proofs.Text.Utf8

/-
Steps of a job in a world, the text of a file, and what a registration reports.
-/

namespace EntityScaffold.Run

open SharedFile

variable {α β : Type} {w w' : World} {p : Path} {text : Text}

theorem run_bind_ok {j : Job α} {k : α → Job β} {a : α} (h : World.run j w = (.ok a, w')) :
    World.run (j >>= k) w = World.run (k a) w' := by
  change World.run (j.bind k) w = _
  rw [World.run_bind, h]

theorem run_notes (es : List Log.Entry) (w : World) :
    ∃ w', World.run (Job.notes es) w = (.ok (), w') ∧ w'.tree = w.tree := by
  induction es generalizing w with
  | nil => exact ⟨w, rfl, rfl⟩
  | cons e es ih =>
    obtain ⟨w', hrun, htree⟩ := ih (w.say (.entry e))
    exact ⟨w', hrun, htree⟩

/-- The text of a file, if the file is there and holds one. -/
def fileText? (t : FileTree) (p : Path) : Option Text :=
  match t.read p with
  | .ok octets => (Utf8.decode octets).toOption
  | .error _ => none

theorem read_of_fileText? {t : FileTree} (h : fileText? t p = some text) :
    ∃ octets, t.read p = .ok octets ∧ Utf8.decode octets = .ok text := by
  unfold fileText? at h
  cases hread : t.read p with
  | error r => simp [hread] at h
  | ok octets =>
    simp only [hread] at h
    cases hdecode : Utf8.decode octets with
    | error f => simp [hdecode, Except.toOption] at h
    | ok s =>
      simp only [hdecode, Except.toOption, Option.some.injEq] at h
      exact ⟨octets, rfl, h ▸ hdecode⟩

theorem fileText?_of_read {t : FileTree} (h : t.read p = .ok (Utf8.encode text)) : fileText? t p = some text := by
  simp [fileText?, h, Utf8.decode_encode, Except.toOption]

theorem textAt_of_fileText? {t : FileTree} (h : fileText? t p = some text) : textAt t p = .ok (Text.unifyLineEnds text) := by
  obtain ⟨octets, hread, hdecode⟩ := read_of_fileText? h
  exact textAt_ok_iff.2 ⟨octets, hread, textOfOctets_ok_iff.2 ⟨text, hdecode, rfl⟩⟩

theorem fileText?_of_textAt {t : FileTree} (h : textAt t p = .ok text) : ∃ x, fileText? t p = some x := by
  obtain ⟨octets, hread, htext⟩ := textAt_ok_iff.1 h
  obtain ⟨x, hdecode, -⟩ := textOfOctets_ok_iff.1 htext
  exact ⟨x, by simp only [fileText?, hread, hdecode, Except.toOption]⟩

def reportOf (t : Target) : Outcome → Registration
  | .registered => { target := t.name, filePath := t.filePath }
  | .spliced s => {
      target := t.name
      filePath := t.filePath
      applied := s.applied > 0
      insertions := s.applied
      warnings := s.warnings }

end EntityScaffold.Run
