import EntityScaffold.Proofs.FileTree.Temporary
import EntityScaffold.Proofs.Job.Ensures
import EntityScaffold.Run.Files

/-
Reading and writing files, from the first request to the last: what is read, which folders are made on the way, and when a
file is written. A file that is not written leaves no more behind than folders on its way.
-/

namespace EntityScaffold

/-- A failure at a path: the system refuses it, or it holds a null character. -/
def Failure.Refuses (p : Path) (f : Failure) : Prop :=
  f.isSystem = true ∨ (f = .refused .nullInPath ∧ '\x00' ∈ p.text)

theorem Failure.Refuses.of_parent {p : Path} {f : Failure} (h : f.Refuses p.parent) : f.Refuses p := by
  rcases h with system | ⟨rfl, hnull⟩
  · exact Or.inl system
  · rcases Path.text_parent_mem hnull with hnull | hdot
    · exact Or.inr ⟨rfl, hnull⟩
    · exact absurd hdot (by decide)

theorem Failure.isOfArtifact_of_isSystem {f : Failure} (h : f.isSystem = true) : f.isOfArtifact = true := by
  cases f with
  | templateUnreadable => rfl
  | _ => exact h

namespace Run

open FileTree (Change Opens Accepts)

variable {t u : FileTree} {p : Path} {f : Failure} {content : Text} {octets : Octets} {r : Except Failure Unit}

def textAt (t : FileTree) (p : Path) : Except Failure Text :=
  match t.read p with
  | .ok octets => textOfOctets octets
  | .error r => .error (.refused r)

theorem ensures_readText (t : FileTree) (p : Path) : (readText p).Ensures t fun r u => r = textAt t p ∧ u = t := by
  refine (Job.ensures_read t p).bind ?_ ?_
  · rintro octets u ⟨hread⟩
    exact Job.ensures_ofExcept ⟨by simp only [textAt, hread], rfl⟩
  · rintro f u (_ | hread)
    exact ⟨by simp only [textAt, hread], rfl⟩

theorem textAt_ok_iff :
    textAt t p = .ok content ↔ ∃ octets, t.read p = .ok octets ∧ textOfOctets octets = .ok content := by
  unfold textAt
  cases t.read p <;> simp

theorem textOfOctets_ok_iff :
    textOfOctets octets = .ok content ↔ ∃ raw, Utf8.decode octets = .ok raw ∧ content = Text.unifyLineEnds raw := by
  unfold textOfOctets
  cases Utf8.decode octets <;> simp [eq_comm]

theorem read_error {r : FileTree.Refusal} (h : t.read p = .error r) :
    (r = .nullInPath ∧ '\x00' ∈ p.text) ∨ ∃ reason path target, r = .system reason path target := by
  unfold FileTree.read at h
  cases hspot : t.spot p with
  | error r' =>
    obtain rfl : r' = r := by simpa [hspot, bind, Except.bind] using h
    rcases FileTree.spot_error_cases hspot with null | ⟨reason, hr, -⟩
    · exact Or.inl null
    · exact Or.inr ⟨_, _, _, hr⟩
  | ok s =>
    simp only [hspot, bind, Except.bind] at h
    split at h
    · exact absurd h (by simp)
    · exact Or.inr ⟨_, _, _, (Except.error.inj h).symm⟩
    · exact Or.inr ⟨_, _, _, (Except.error.inj h).symm⟩

theorem textAt_error (h : textAt t p = .error f) :
    f.Refuses p ∨ ∃ octets fault, t.read p = .ok octets ∧ Utf8.decode octets = .error fault ∧
      f = .undecodable fault := by
  unfold textAt at h
  split at h
  · next octets hread =>
    unfold textOfOctets at h
    split at h
    · exact absurd h (by simp)
    · next fault hfault => exact Or.inr ⟨octets, fault, hread, hfault, (Except.error.inj h).symm⟩
  · next r hread =>
    obtain rfl := Except.error.inj h
    rcases read_error hread with ⟨rfl, hnull⟩ | ⟨reason, path, target, rfl⟩
    · exact Or.inl (Or.inr ⟨rfl, hnull⟩)
    · exact Or.inl (Or.inl rfl)

theorem textAt_error_of_file (hlook : t.look p = .ok .file) (h : textAt t p = .error f) :
    f.isSystem = true ∨
      ∃ octets fault, t.read p = .ok octets ∧ Utf8.decode octets = .error fault ∧ f = .undecodable fault := by
  rcases textAt_error h with (system | ⟨-, hnull⟩) | undecodable
  · exact Or.inl system
  · simp [FileTree.look, FileTree.spot, hnull] at hlook
  · exact Or.inr undecodable

/-- How making a folder ends, with those it lies in. -/
inductive FolderMade (t : FileTree) (p : Path) : Except Failure Unit → FileTree → Prop
  | made {u : FileTree} (change : Change {l | l ∈ t.passedBy p} ∅ t u) (fits : p.Fits)
      (folders : ∀ l ∈ t.passedBy p, u.get? l = some .folder) : FolderMade t p (.ok ()) u
  | refused {u : FileTree} {f : Failure} (change : Change {l | l ∈ t.passedBy p} ∅ t u) (shut : ¬ t.Opens p)
      (refuses : f.Refuses p) : FolderMade t p (.error f) u

theorem FolderMade.after {v : FileTree} (change : Change {l | l ∈ t.passedBy p} ∅ t u) (h : FolderMade u p r v) :
    FolderMade t p r v := by
  cases h with
  | made change' fits folders =>
    rw [change.passedBy] at change' folders
    exact .made (change.trans change') fits folders
  | refused change' shut refuses =>
    rw [change.passedBy] at change'
    exact .refused (change.trans change') (mt (change.opens_iff (by simp)).2 shut) refuses

theorem ensures_unlessFolder (hf : f.isSystem = true) (shut : t.look p ≠ .ok .folder → ¬ t.Opens p) :
    (unlessFolder p f).Ensures t (FolderMade t p) := by
  have kept := Change.refl {l | l ∈ t.passedBy p} ∅ t
  unfold unlessFolder
  rw [if_pos hf]
  refine (Job.ensures_look t p).bind ?_ ?_
  · rintro sight u ⟨hlook⟩
    cases sight with
    | folder =>
      obtain ⟨fits, folders⟩ := FileTree.look_folder_iff.1 hlook
      exact Job.ensures_pure (.made kept fits folders)
    | nothing => exact Job.ensures_failed (.refused kept (shut (by simp [hlook])) (Or.inl hf))
    | file => exact Job.ensures_failed (.refused kept (shut (by simp [hlook])) (Or.inl hf))
  · rintro g u (_ | hlook)
    obtain ⟨reason, path, target, rfl⟩ := FileTree.look_error hlook
    exact .refused kept (shut (by simp [hlook])) (Or.inl rfl)

theorem ensures_makeFolderOnce (folders : ∀ l ∈ t.passedBy p.parent, t.get? l = some .folder) :
    (makeFolderOnce p).Ensures t (FolderMade t p) := by
  have kept := Change.refl {l | l ∈ t.passedBy p} ∅ t
  unfold makeFolderOnce
  refine (Job.ensures_makeFolder t p).attempt ?_
  rintro r u (hmake | hmake)
  · obtain ⟨fits, change, folders⟩ := FileTree.makeFolder_ok hmake
    exact Job.ensures_pure (.made change fits folders)
  · rcases FileTree.makeFolder_error_cases hmake with
      ⟨rfl, hnull⟩ | ⟨reason, rfl, ⟨rfl, -, lost⟩ | ⟨present, there⟩⟩
    · exact Job.ensures_failed (.refused kept (fun open_ => open_.fits.null hnull) (Or.inr ⟨rfl, hnull⟩))
    · refine Job.ensures_failed (.refused kept (fun open_ => ?_) (Or.inl rfl))
      obtain ⟨s, hs⟩ := open_.spot folders
      exact lost s hs
    · have notMissing : ¬ (Failure.refused (.system reason p.text none)).isMissing = true := by
        cases reason <;> simp [Failure.isMissing] at present ⊢
      dsimp only
      rw [if_neg notMissing]
      exact ensures_unlessFolder rfl fun hlook => there.resolve_left hlook

theorem ensures_makeFolders {n : Nat} (hn : p.parts.length ≤ n) :
    (makeFolders n p).Ensures t (FolderMade t p) := by
  have kept (q : Path) := Change.refl {l | l ∈ t.passedBy q} ∅ t
  induction n generalizing p with
  | zero =>
    have hnil : p.parts = [] := List.length_eq_zero_iff.1 (Nat.le_zero.1 hn)
    refine ensures_makeFolderOnce fun l hl => ?_
    simp [FileTree.passedBy, Path.parent, hnil] at hl
  | succ n ih =>
    unfold makeFolders
    refine (Job.ensures_makeFolder t p).attempt ?_
    rintro r u (hmake | hmake)
    · obtain ⟨fits, change, folders⟩ := FileTree.makeFolder_ok hmake
      exact Job.ensures_pure (.made change fits folders)
    · rcases FileTree.makeFolder_error_cases hmake with
        ⟨rfl, hnull⟩ | ⟨reason, rfl, ⟨rfl, ne, -⟩ | ⟨present, there⟩⟩
      · exact Job.ensures_failed (.refused (kept p) (fun open_ => open_.fits.null hnull) (Or.inr ⟨rfl, hnull⟩))
      · -- nothing stands at the parent: it is made first
        have shorter : p.parent.parts.length ≤ n := by
          rw [Path.parent, List.length_dropLast]
          omega
        have more : {l | l ∈ t.passedBy p.parent} ⊆ {l | l ∈ t.passedBy p} := FileTree.passedBy_parent_subset t p
        have missing : (Failure.refused (.system .missing p.text none)).isMissing = true := rfl
        dsimp only
        rw [if_pos missing]
        refine (ih shorter).bind ?_ ?_
        · rintro ⟨⟩ u (⟨change, -, folders⟩ | _)
          rw [← change.passedBy] at folders
          refine (ensures_makeFolderOnce folders).mono fun r v made => ?_
          exact made.after (change.mono more (le_refl _))
        · rintro f u (_ | ⟨change, shut, refuses⟩)
          exact .refused (change.mono more (le_refl _)) (fun open_ => shut open_.parent) refuses.of_parent
      · have notMissing : ¬ (Failure.refused (.system reason p.text none)).isMissing = true := by
          cases reason <;> simp [Failure.isMissing] at present ⊢
        dsimp only
        rw [if_neg notMissing]
        exact ensures_unlessFolder rfl fun hlook => there.resolve_left hlook

theorem ensures_ensureFolder (t : FileTree) (p : Path) : (ensureFolder p).Ensures t (FolderMade t p) := by
  refine (ensures_makeFolders (Nat.le_refl _)).bind ?_ fun f u h => h
  rintro ⟨⟩ u h
  exact Job.ensures_note (Job.ensures_pure h)

/-- How a file is put into a folder that is there: it stands there and all else is as before, or nothing has changed. -/
inductive FilePut (t : FileTree) (p : Path) (octets : Octets) (able : Prop) : Except Failure Unit → FileTree → Prop
  | done (can : able) : FilePut t p octets able (.ok ()) (t.put (t.locationOf p) (.file octets))
  | refused {f : Failure} (cannot : ¬ able) (refuses : f.Refuses p) : FilePut t p octets able (.error f) t

theorem ensures_write (folders : ∀ l ∈ t.passedBy p.parent, t.get? l = some .folder) :
    (Job.write p octets).Ensures t (FilePut t p octets (t.Admits p)) := by
  refine (Job.ensures_write t p octets).mono ?_
  rintro r u (hwrite | hwrite)
  · obtain ⟨fits, named, folders, free, rfl⟩ := FileTree.write_ok hwrite
    exact .done (FileTree.admits_of_folders fits named folders free)
  · refine .refused (fun admits => ?_) ?_
    · rw [FileTree.write_of_folders admits.fits admits.named folders admits.free] at hwrite
      exact absurd hwrite (by simp)
    · rcases FileTree.write_error hwrite with ⟨rfl, hnull⟩ | ⟨reason, path, target, rfl⟩
      · exact Or.inr ⟨rfl, hnull⟩
      · exact Or.inl rfl

/-- How a temporary file takes its place: it stands there under the path's name, or still under its own. -/
inductive TemporaryMoved (t : FileTree) (p : Path) (place : Location) (octets : Octets) :
    Except Failure Unit → FileTree → Prop
  | done (can : t.Admits p) : TemporaryMoved t p place octets (.ok ()) (t.put (t.locationOf p) (.file octets))
  | refused {f : Failure} (cannot : ¬ t.Admits p) (refuses : f.Refuses p) :
      TemporaryMoved t p place octets (.error f) (t.put place (.file octets))

theorem ensures_temporaryMoved {place : Location} (next : t.IsNextTo p place)
    (folders : ∀ l ∈ t.passedBy p.parent, t.get? l = some .folder) (octets : Octets) :
    (do Job.fill place octets; let _ ← Job.look p; Job.move place p : Job Unit).Ensures (t.put place (.file []))
      (TemporaryMoved t p place octets) := by
  refine Job.ensures_fill ?_
  rw [FileTree.fill_of_file (FileTree.get?_put_self next.ne_nil _), FileTree.put_put]
  refine (Job.ensures_look _ p).bind ?_ ?_
  · rintro sight u ⟨-⟩
    refine (Job.ensures_move _ place p).mono ?_
    rintro r u (hmove | hmove)
    · obtain ⟨admits, rfl⟩ := next.move_put_ok hmove
      exact .done admits
    · refine .refused (fun admits => ?_) ?_
      · rw [next.move_put_of_admits admits folders octets] at hmove
        exact absurd hmove (by simp)
      · rcases FileTree.move_error hmove with ⟨rfl, hnull⟩ | ⟨reason, path, target, rfl⟩
        · exact Or.inr ⟨rfl, hnull⟩
        · exact Or.inl rfl
  · rintro f u (_ | hlook)
    refine .refused (fun admits => ?_) ?_
    · obtain ⟨sight, shown⟩ := next.look_put_of_admits admits folders (.file octets)
      rw [shown] at hlook
      exact absurd hlook (by simp)
    · obtain ⟨reason, path, target, rfl⟩ := FileTree.look_error hlook
      exact Or.inl rfl

/-- A file is replaced in one step, or not at all: whatever fails, the temporary file is gone. -/
theorem ensures_replaceFile (fits : p.parent.Fits) (folders : ∀ l ∈ t.passedBy p.parent, t.get? l = some .folder)
    (octets : Octets) : (replaceFile p octets).Ensures t (FilePut t p octets (t.Accepts p)) := by
  unfold replaceFile
  refine (Job.ensures_temporary t p).bind ?_ ?_
  · rintro place u (hmade | _)
    obtain ⟨next, -, -, room, rfl⟩ := FileTree.makeTemporary_ok hmade
    refine (ensures_temporaryMoved next folders octets).attempt ?_
    rintro r u (can | ⟨cannot, refuses⟩)
    · exact Job.ensures_pure (.done ⟨can, room⟩)
    · refine Job.ensures_discard ?_
      rw [next.discard_put]
      exact Job.ensures_failed (.refused (fun accepts => cannot accepts.toAdmits) refuses)
  · rintro f u (_ | hmade)
    rcases FileTree.makeTemporary_error fits folders hmade with ⟨rfl, hnull⟩ | ⟨⟨reason, path, target, rfl⟩, full⟩
    · exact .refused (fun accepts => accepts.fits.null hnull) (Or.inr ⟨rfl, hnull⟩)
    · exact .refused (fun accepts => full accepts.toHasRoom) (Or.inl rfl)

/-- How writing a text ends: once the folders on its way are made, the file holds it and nothing else has changed; or the tree
does not take a file there. -/
inductive FileWritten (t : FileTree) (p : Path) (content : Text) (atomic : Bool) : Except Failure Nat → FileTree → Prop
  | written {u : FileTree} (takes : t.Takes p atomic) (change : Change {l | l ∈ t.passedBy p.parent} ∅ t u)
      (folders : ∀ l ∈ t.passedBy p.parent, u.get? l = some .folder) :
      FileWritten t p content atomic (.ok (Utf8.encode content).length)
        (u.put (t.locationOf p) (.file (Utf8.encode content)))
  | refused {u : FileTree} {f : Failure} (change : Change {l | l ∈ t.passedBy p.parent} ∅ t u)
      (shut : ¬ t.Takes p atomic) (refuses : f.Refuses p) : FileWritten t p content atomic (.error f) u

theorem ensures_fileWritten (t : FileTree) (p : Path) (content : Text) (atomic : Bool) :
    (writeFile p content atomic).Ensures t (FileWritten t p content atomic) := by
  unfold writeFile
  refine (ensures_ensureFolder t p.parent).bind ?_ ?_
  · rintro ⟨⟩ u (⟨change, fits, folders⟩ | _)
    have same : u.Takes p atomic ↔ t.Takes p atomic := change.takes_iff (by simp) id
    -- whichever way the file is put into its folder, the length is reported after it
    have reported (way : Job Unit) (e : Log.Entry)
        (put : way.Ensures u (FilePut u p (Utf8.encode content) (u.Takes p atomic))) :
        (do way; Job.note e; return (Utf8.encode content).length : Job Nat).Ensures u
          (FileWritten t p content atomic) := by
      refine put.bind ?_ ?_
      · rintro ⟨⟩ v (takes | _)
        rw [change.locationOf]
        exact Job.ensures_note (Job.ensures_pure (.written (same.1 takes) change folders))
      · rintro f v (_ | ⟨shut, refuses⟩)
        exact .refused change (mt same.2 shut) refuses
    have folders_here : ∀ l ∈ u.passedBy p.parent, u.get? l = some .folder := change.passedBy p.parent ▸ folders
    cases atomic with
    | true => exact reported _ _ (ensures_replaceFile fits folders_here _)
    | false => exact reported _ _ (ensures_write folders_here)
  · rintro f u (_ | ⟨change, shut, refuses⟩)
    exact .refused change (fun takes => shut takes.admits.opens) refuses.of_parent

theorem FileWritten.standing {n : Nat} {atomic : Bool} (h : FileWritten t p content atomic (.ok n) u) :
    Change {l | l ∈ t.passedBy p.parent} {t.locationOf p} t u ∧
      (∀ l ∈ t.passedBy p.parent, u.get? l = some .folder) ∧
      u.get? (t.locationOf p) = some (.file (Utf8.encode content)) := by
  cases h with
  | @written v takes change folders =>
    have hne : t.locationOf p ≠ [] := FileTree.locationOf_ne_nil takes.admits.named
    have free := ((change.admits_iff (by simp) id).2 takes.admits).free
    rw [change.locationOf] at free
    have written := FileTree.change_put_text hne free content
    refine ⟨?_, fun l hl => written.folder (folders l hl), FileTree.get?_put_self hne _⟩
    exact (change.mono (le_refl _) (Set.empty_subset _)).trans (written.mono (Set.empty_subset _) (le_refl _))

/-- How an atomic write ends: the file holds the text, or the tree does not accept a file there. -/
inductive TextWritten (t : FileTree) (p : Path) (content : Text) : Except Failure Nat → FileTree → Prop
  | written {u : FileTree} (accepts : t.Accepts p)
      (change : Change {l | l ∈ t.passedBy p.parent} {t.locationOf p} t u)
      (folders : ∀ l ∈ t.passedBy p.parent, u.get? l = some .folder)
      (there : u.get? (t.locationOf p) = some (.file (Utf8.encode content))) :
      TextWritten t p content (.ok (Utf8.encode content).length) u
  | refused {u : FileTree} {f : Failure} (change : Change {l | l ∈ t.passedBy p.parent} ∅ t u)
      (shut : ¬ t.Accepts p) (refuses : f.Refuses p) : TextWritten t p content (.error f) u

theorem TextWritten.change_univ {r : Except Failure Nat} (h : TextWritten t p content r u) :
    Change Set.univ Set.univ t u := by
  cases h with
  | written _ change _ _ => exact change.mono (Set.subset_univ _) (Set.subset_univ _)
  | refused change _ _ => exact change.mono (Set.subset_univ _) (Set.subset_univ _)

theorem TextWritten.read {n : Nat} (h : TextWritten t p content (.ok n) u) : u.read p = .ok (Utf8.encode content) := by
  cases h with
  | written accepts change folders there => exact change.read_there accepts.fits accepts.named folders there

theorem ensures_writeFile (t : FileTree) (p : Path) (content : Text) :
    (writeFile p content true).Ensures t (TextWritten t p content) := by
  refine (ensures_fileWritten t p content true).mono ?_
  rintro (f | n) u written
  · cases written with
    | refused change shut refuses => exact .refused change shut refuses
  · obtain ⟨change, folders, there⟩ := written.standing
    cases written with
    | written accepts _ _ => exact .written accepts change folders there

end Run

end EntityScaffold
