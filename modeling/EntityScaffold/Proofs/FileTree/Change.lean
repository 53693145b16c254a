import EntityScaffold.FileTree.Temporary
import EntityScaffold.Proofs.FileTree.Ways
import Mathlib.Data.Set.Insert

/-
Changes that take nothing away from a tree: folders are made where nothing stood, and texts are written where no folder
stands. A path that shows a file goes on showing it as long as the file itself is not written, and a path that accepts a
file goes on accepting it as long as nothing is written on its way.
-/

namespace EntityScaffold.FileTree

variable {t u v : FileTree} {p : Path} {s : Spot} {l : Location} {content : Octets}
variable {made made' written written' : Set Location}

/-- Folders were made at some of the first locations, and texts were written at some of the others. -/
structure Change (made written : Set Location) (t u : FileTree) : Prop where
  work : u.work = t.work
  nodes : ∀ l, u.get? l = t.get? l ∨ (l ∈ made ∧ t.get? l = none ∧ u.get? l = some .folder) ∨
    (l ∈ written ∧ t.get? l ≠ some .folder ∧ ∃ text, u.get? l = some (.file (Utf8.encode text)))

namespace Change

theorem refl (made written : Set Location) (t : FileTree) : Change made written t t :=
  ⟨rfl, fun _ => Or.inl rfl⟩

theorem mono (h : Change made written t u) (hm : made ⊆ made') (hw : written ⊆ written') :
    Change made' written' t u := by
  refine ⟨h.work, fun l => ?_⟩
  rcases h.nodes l with same | ⟨hl, before, after⟩ | ⟨hl, before, after⟩
  · exact Or.inl same
  · exact Or.inr (Or.inl ⟨hm hl, before, after⟩)
  · exact Or.inr (Or.inr ⟨hw hl, before, after⟩)

theorem folder (h : Change made written t u) (hl : t.get? l = some .folder) : u.get? l = some .folder := by
  rcases h.nodes l with same | ⟨-, before, -⟩ | ⟨-, before, -⟩
  · rw [same, hl]
  · simp [hl] at before
  · exact absurd hl before

theorem trans (h : Change made written t u) (h' : Change made written u v) : Change made written t v := by
  refine ⟨h'.work.trans h.work, fun l => ?_⟩
  rcases h'.nodes l with same | ⟨hl, before, after⟩ | ⟨hl, before, after⟩
  · rw [same]
    exact h.nodes l
  · rcases h.nodes l with same | ⟨-, -, after'⟩ | ⟨-, -, text, after'⟩
    · exact Or.inr (Or.inl ⟨hl, same ▸ before, after⟩)
    · simp [before] at after'
    · simp [before] at after'
  · exact Or.inr (Or.inr ⟨hl, fun hf => before (h.folder hf), after⟩)

theorem start (h : Change made written t u) (p : Path) : u.start p = t.start p := by
  rw [FileTree.start, FileTree.start, h.work]

theorem locationOf (h : Change made written t u) (p : Path) : u.locationOf p = t.locationOf p := by
  rw [FileTree.locationOf, FileTree.locationOf, h.start]

theorem passedBy (h : Change made written t u) (p : Path) : u.passedBy p = t.passedBy p := by
  rw [FileTree.passedBy, FileTree.passedBy, h.start]

theorem kept (h : Change made written t u) (hm : l ∉ made) (hw : l ∉ written) : u.get? l = t.get? l := by
  rcases h.nodes l with same | ⟨hl, -, -⟩ | ⟨hl, -, -⟩
  · exact same
  · exact absurd hl hm
  · exact absurd hl hw

theorem made_there (h : Change made written t u) (there : ∀ l ∈ made, t.get? l = some .folder) :
    Change ∅ written t u := by
  refine ⟨h.work, fun l => ?_⟩
  rcases h.nodes l with same | ⟨hl, before, -⟩ | changed
  · exact Or.inl same
  · simp [there l hl] at before
  · exact Or.inr (Or.inr changed)

theorem file_iff (h : Change made written t u) (hl : l ∉ written) :
    u.get? l = some (.file content) ↔ t.get? l = some (.file content) := by
  rcases h.nodes l with same | ⟨-, before, after⟩ | ⟨hl', -, -⟩
  · rw [same]
  · simp [before, after]
  · exact absurd hl' hl

theorem file_cases (h : Change made written t u) (hl : u.get? l = some (.file content)) :
    t.get? l = some (.file content) ∨ ∃ text, content = Utf8.encode text := by
  rcases h.nodes l with same | ⟨-, -, after⟩ | ⟨-, -, text, after⟩
  · exact Or.inl (same ▸ hl)
  · simp [hl] at after
  · rw [hl] at after
    exact Or.inr ⟨text, by simpa using after⟩

theorem file_stays (h : Change made written t u) (hl : t.get? l = some (.file content)) :
    ∃ content', u.get? l = some (.file content') := by
  rcases h.nodes l with same | ⟨-, before, -⟩ | ⟨-, -, text, after⟩
  · exact ⟨content, same ▸ hl⟩
  · simp [hl] at before
  · exact ⟨_, after⟩

theorem read (h : Change made written t u) (hp : t.locationOf p ∉ written) (hread : t.read p = .ok content) :
    u.read p = .ok content := by
  obtain ⟨fits, named, folders, hfile⟩ := read_eq_ok_iff.1 hread
  refine read_eq_ok_iff.2 ⟨fits, named, ?_, ?_⟩
  · rw [h.passedBy]
    exact fun l hl => h.folder (folders l hl)
  · rw [h.locationOf, h.file_iff hp]
    exact hfile

theorem read_there (h : Change made written t u) (fits : p.Fits) (named : p.HasName)
    (folders : ∀ l ∈ t.passedBy p.parent, u.get? l = some .folder)
    (there : u.get? (t.locationOf p) = some (.file content)) : u.read p = .ok content := by
  rw [← h.passedBy] at folders
  rw [← h.locationOf] at there
  exact read_eq_ok_iff.2 ⟨fits, named, folders, there⟩

theorem read_iff (h : Change made written t u) (hp : t.locationOf p ∉ written)
    (folders : ∀ l ∈ t.passedBy p.parent, t.get? l = some .folder) :
    u.read p = .ok content ↔ t.read p = .ok content := by
  refine ⟨fun hread => ?_, h.read hp⟩
  obtain ⟨fits, named, -, hfile⟩ := read_eq_ok_iff.1 hread
  rw [h.locationOf, h.file_iff hp] at hfile
  exact read_eq_ok_iff.2 ⟨fits, named, folders, hfile⟩

end Change

theorem get?_put (hl : l ≠ []) (n : Node) (m : Location) :
    (t.put l n).get? m = if m = l then some n else t.get? m := by
  by_cases h : m = l
  · rw [if_pos h, h, get?_put_self hl]
  · rw [if_neg h, get?_put_of_ne h]

theorem change_put_folder (hl : l ≠ []) (hnone : t.get? l = none) : Change {l} ∅ t (t.put l .folder) := by
  refine ⟨rfl, fun m => ?_⟩
  rw [get?_put hl]
  by_cases h : m = l
  · subst h
    exact Or.inr (Or.inl ⟨rfl, hnone, if_pos rfl⟩)
  · exact Or.inl (if_neg h)

theorem change_put_text (hl : l ≠ []) (hfolder : t.get? l ≠ some .folder) (text : Text) :
    Change ∅ {l} t (t.put l (.file (Utf8.encode text))) := by
  refine ⟨rfl, fun m => ?_⟩
  rw [get?_put hl]
  by_cases h : m = l
  · subst h
    exact Or.inr (Or.inr ⟨rfl, hfolder, text, if_pos rfl⟩)
  · exact Or.inl (if_neg h)

/-- A tree in which a folder can be made at a path, with those it lies in. -/
structure Opens (t : FileTree) (p : Path) : Prop where
  fits : p.Fits
  way : ∀ l ∈ t.passedBy p, ∀ content, t.get? l ≠ some (.file content)

theorem Change.opens_iff (h : Change made written t u) (hw : ∀ l ∈ written, l ∉ t.passedBy p) :
    u.Opens p ↔ t.Opens p := by
  have way (l : Location) (hl : l ∈ t.passedBy p) (content : Octets) :
      u.get? l = some (.file content) ↔ t.get? l = some (.file content) := h.file_iff fun hl' => hw l hl' hl
  constructor
  · rintro ⟨fits, hway⟩
    rw [h.passedBy] at hway
    exact ⟨fits, fun l hl c hc => hway l hl c ((way l hl c).2 hc)⟩
  · rintro ⟨fits, hway⟩
    refine ⟨fits, ?_⟩
    rw [h.passedBy]
    exact fun l hl c hc => hway l hl c ((way l hl c).1 hc)

theorem Opens.parent (h : t.Opens p) : t.Opens p.parent :=
  ⟨h.fits.parent, fun l hl => h.way l (passedBy_parent_subset t p hl)⟩

theorem Opens.spot (h : t.Opens p) (folders : ∀ l ∈ t.passedBy p.parent, t.get? l = some .folder) :
    ∃ s, t.spot p = .ok s := by
  by_cases named : p.HasName
  · exact ⟨_, spot_in_folder h.fits named folders⟩
  · have same : t.passedBy p = t.passedBy p.parent := by
      by_cases hnil : p.parts = []
      · rw [FileTree.passedBy, FileTree.passedBy, show p.parent.parts = p.parts by simp [Path.parent, hnil]]
        rfl
      · have hup : p.name = "..".toList := by
          by_contra hne
          exact named ⟨hnil, hne⟩
        rw [FileTree.passedBy, Path.parts_eq hnil, hup, passed_append, passed_up, passed_nil, List.append_nil]
        rfl
    obtain ⟨s, hs, -⟩ := spot_folder_iff.2 ⟨h.fits, same ▸ folders⟩
    exact ⟨s, hs⟩

theorem look_folder_iff :
    t.look p = .ok .folder ↔ p.Fits ∧ ∀ l ∈ t.passedBy p, t.get? l = some .folder := by
  rw [← spot_folder_iff]
  constructor
  · intro h
    unfold look at h
    split at h
    · next s hs =>
      refine ⟨s, hs, ?_⟩
      split at h
      · exact absurd h (by simp)
      · assumption
      · exact absurd h (by simp)
    all_goals exact absurd h (by simp)
  · rintro ⟨s, hs, hnode⟩
    rw [look, hs]
    simp only [hnode]

theorem look_error {r : Refusal} (h : t.look p = .error r) : ∃ reason path target, r = .system reason path target := by
  unfold look at h
  split at h
  · split at h <;> exact absurd h (by simp)
  · exact absurd h (by simp)
  · exact absurd h (by simp)
  · exact absurd h (by simp)
  · next hspot =>
    cases r with
    | system reason path target => exact ⟨_, _, _, rfl⟩
    | nullInPath =>
      obtain rfl := Except.error.inj h
      contradiction

theorem look_of_spot (h : t.spot p = .ok s) : ∃ sight, t.look p = .ok sight := by
  rw [look, h]
  dsimp only
  split <;> exact ⟨_, rfl⟩

theorem makeFolder_ok (h : t.makeFolder p = .ok u) :
    p.Fits ∧ Change {l | l ∈ t.passedBy p} ∅ t u ∧ ∀ l ∈ t.passedBy p, u.get? l = some .folder := by
  unfold makeFolder at h
  cases hspot : t.spot p with
  | error r => simp [hspot, bind, Except.bind] at h
  | ok s =>
    simp only [hspot, bind, Except.bind] at h
    split at h
    · exact absurd h (by simp)
    · next hnone =>
      have named : p.HasName := named_of_spot hspot (Or.inr (by simp [hnone]))
      obtain ⟨fits, folders, rfl⟩ := spot_named named hspot
      have mem : t.locationOf p ∈ t.passedBy p := by simp [passedBy_eq named]
      have hne : t.locationOf p ≠ [] := ne_nil_of_mem_passed mem
      obtain rfl := Except.ok.inj h
      have change := change_put_folder hne hnone
      refine ⟨fits, change.mono (Set.singleton_subset_iff.2 mem) (le_refl _), fun l hl => ?_⟩
      rw [passedBy_eq named] at hl
      rcases List.mem_append.1 hl with hl | hl
      · exact change.folder (folders l hl)
      · rw [List.mem_singleton.1 hl, get?_put_self hne]

theorem makeFolder_error_cases {r : Refusal} (h : t.makeFolder p = .error r) :
    (r = .nullInPath ∧ '\x00' ∈ p.text) ∨
      ∃ reason, r = .system reason p.text none ∧
        ((reason = .missing ∧ p.parts ≠ [] ∧ ∀ s, t.spot p ≠ .ok s) ∨
          (reason ≠ .missing ∧ (t.look p = .ok .folder ∨ ¬ t.Opens p))) := by
  unfold makeFolder at h
  cases hspot : t.spot p with
  | error r' =>
    obtain rfl : r' = r := by simpa [hspot, bind, Except.bind] using h
    rcases spot_error_cases hspot with
      null | ⟨reason, rfl, ⟨rfl, ne⟩ | ⟨rfl, l, hl, c, hfile⟩ | ⟨rfl, long⟩⟩
    · exact Or.inl null
    · exact Or.inr ⟨_, rfl, Or.inl ⟨rfl, ne, by simp⟩⟩
    · exact Or.inr ⟨_, rfl, Or.inr ⟨by simp, Or.inr fun open_ => open_.way l hl c hfile⟩⟩
    · exact Or.inr ⟨_, rfl, Or.inr ⟨by simp, Or.inr fun open_ => long open_.fits⟩⟩
  | ok s =>
    simp only [hspot, bind, Except.bind] at h
    split at h
    · next n hnode =>
      refine Or.inr ⟨.exists, (Except.error.inj h).symm, Or.inr ⟨by simp, ?_⟩⟩
      cases n with
      | folder => exact Or.inl (look_folder_iff.2 (spot_folder_iff.1 ⟨s, hspot, hnode⟩))
      | file c =>
        obtain ⟨hmem, hget⟩ := node_of_follow (follow_of_spot hspot).2.2 (by simp [hnode])
        exact Or.inr fun open_ => open_.way _ hmem c (hget ▸ hnode)
    · exact absurd h (by simp)

/-- A tree in which a file can be written at a path, once the missing folders on its way are made. -/
structure Admits (t : FileTree) (p : Path) : Prop where
  fits : p.Fits
  named : p.HasName
  way : ∀ l ∈ t.passedBy p.parent, ∀ content, t.get? l ≠ some (.file content)
  free : t.get? (t.locationOf p) ≠ some .folder
  off : t.locationOf p ∉ t.passedBy p.parent

/-- There is room for a temporary file next to a path: neither its name nor its whole path is too long. -/
structure HasRoom (t : FileTree) (p : Path) : Prop where
  name : ¬ longestName < (Utf8.encode (temporaryName anyMiddle p.name)).length
  whole : ¬ longestPath ≤ (Utf8.encode (t.wholeTemporary p).text).length

theorem hasRoom_congr (work : u.work = t.work) : u.HasRoom p ↔ t.HasRoom p := by
  have same : u.wholeTemporary p = t.wholeTemporary p := by rw [wholeTemporary, wholeTemporary, work]
  exact ⟨fun ⟨name, whole⟩ => ⟨name, same ▸ whole⟩, fun ⟨name, whole⟩ => ⟨name, same ▸ whole⟩⟩

/-- A tree in which a file can be written at a path by way of a temporary file. -/
structure Accepts (t : FileTree) (p : Path) : Prop extends t.Admits p, t.HasRoom p

/-- A change leaves a path as it was for a file when nothing is written on its way or at its end, and no folder is made
at its end that does not lie on its way. -/
theorem Change.admits_iff (h : Change made written t u)
    (hw : ∀ l ∈ written, l ∉ t.passedBy p.parent ∧ l ≠ t.locationOf p)
    (hm : t.locationOf p ∈ made → t.locationOf p ∈ t.passedBy p.parent) : u.Admits p ↔ t.Admits p := by
  have way (l : Location) (hl : l ∈ t.passedBy p.parent) (content : Octets) :
      u.get? l = some (.file content) ↔ t.get? l = some (.file content) := h.file_iff fun hl' => (hw l hl').1 hl
  have free (off : t.locationOf p ∉ t.passedBy p.parent) : u.get? (t.locationOf p) = t.get? (t.locationOf p) :=
    h.kept (fun hl => off (hm hl)) fun hl => (hw _ hl).2 rfl
  constructor
  · rintro ⟨fits, named, hway, hfree, hoff⟩
    rw [h.passedBy] at hway hoff
    rw [h.locationOf] at hfree hoff
    exact ⟨fits, named, fun l hl c hc => hway l hl c ((way l hl c).2 hc), free hoff ▸ hfree, hoff⟩
  · rintro ⟨fits, named, hway, hfree, hoff⟩
    refine ⟨fits, named, ?_, ?_, ?_⟩
    · rw [h.passedBy]
      exact fun l hl c hc => hway l hl c ((way l hl c).1 hc)
    · rw [h.locationOf, free hoff]
      exact hfree
    · rw [h.locationOf, h.passedBy]
      exact hoff

theorem Change.accepts_iff (h : Change made written t u)
    (hw : ∀ l ∈ written, l ∉ t.passedBy p.parent ∧ l ≠ t.locationOf p)
    (hm : t.locationOf p ∈ made → t.locationOf p ∈ t.passedBy p.parent) : u.Accepts p ↔ t.Accepts p := by
  have admits := h.admits_iff hw hm
  have room := hasRoom_congr (p := p) h.work
  exact ⟨fun accepts => ⟨admits.1 accepts.toAdmits, room.1 accepts.toHasRoom⟩,
    fun accepts => ⟨admits.2 accepts.toAdmits, room.2 accepts.toHasRoom⟩⟩

/-- A tree in which a file can be written at a path, atomically or not. -/
def Takes (t : FileTree) (p : Path) : Bool → Prop
  | true => t.Accepts p
  | false => t.Admits p

theorem Takes.admits {atomic : Bool} (h : t.Takes p atomic) : t.Admits p := by
  cases atomic with
  | true => exact Accepts.toAdmits h
  | false => exact h

theorem Change.takes_iff {atomic : Bool} (h : Change made written t u)
    (hw : ∀ l ∈ written, l ∉ t.passedBy p.parent ∧ l ≠ t.locationOf p)
    (hm : t.locationOf p ∈ made → t.locationOf p ∈ t.passedBy p.parent) : u.Takes p atomic ↔ t.Takes p atomic := by
  cases atomic with
  | true => exact h.accepts_iff hw hm
  | false => exact h.admits_iff hw hm

theorem Admits.opens (h : t.Admits p) : t.Opens p.parent := ⟨h.fits.parent, h.way⟩

theorem admits_of_folders (fits : p.Fits) (named : p.HasName)
    (folders : ∀ l ∈ t.passedBy p.parent, t.get? l = some .folder) (free : t.get? (t.locationOf p) ≠ some .folder) :
    t.Admits p := by
  refine ⟨fits, named, fun l hl content file => ?_, free, fun hl => free (folders _ hl)⟩
  exact absurd ((folders l hl).symm.trans file) (by simp)

theorem admits_of_read (h : t.read p = .ok content) : t.Admits p := by
  obtain ⟨fits, named, folders, file⟩ := read_eq_ok_iff.1 h
  exact admits_of_folders fits named folders (by simp [file])

theorem Accepts.of_read (h : t.Accepts p) (work : u.work = t.work) (hread : u.read p = .ok content) : u.Accepts p :=
  ⟨admits_of_read hread, (hasRoom_congr work).2 h.toHasRoom⟩

theorem write_ok (h : t.write p content = .ok u) :
    p.Fits ∧ p.HasName ∧ (∀ l ∈ t.passedBy p.parent, t.get? l = some .folder) ∧
      t.get? (t.locationOf p) ≠ some .folder ∧ u = t.put (t.locationOf p) (.file content) := by
  unfold write at h
  cases hspot : t.spot p with
  | error r => simp [hspot, bind, Except.bind] at h
  | ok s =>
    simp only [hspot, bind, Except.bind] at h
    split at h
    · exact absurd h (by simp)
    · next free =>
      have named : p.HasName := named_of_spot hspot (Or.inr free)
      obtain ⟨fits, folders, rfl⟩ := spot_named named hspot
      exact ⟨fits, named, folders, free, (Except.ok.inj h).symm⟩

theorem write_of_folders (fits : p.Fits) (named : p.HasName)
    (folders : ∀ l ∈ t.passedBy p.parent, t.get? l = some .folder) (free : t.get? (t.locationOf p) ≠ some .folder) :
    t.write p content = .ok (t.put (t.locationOf p) (.file content)) := by
  rw [write, spot_in_folder fits named folders]
  simp only [bind, Except.bind]

theorem write_error {r : Refusal} (h : t.write p content = .error r) :
    (r = .nullInPath ∧ '\x00' ∈ p.text) ∨ ∃ reason path target, r = .system reason path target := by
  unfold write at h
  cases hspot : t.spot p with
  | error r' =>
    obtain rfl : r' = r := by simpa [hspot, bind, Except.bind] using h
    rcases spot_error_cases hspot with null | ⟨reason, rfl, -⟩
    · exact Or.inl null
    · exact Or.inr ⟨_, _, _, rfl⟩
  | ok s =>
    simp only [hspot, bind, Except.bind] at h
    split at h
    · exact Or.inr ⟨_, _, _, (Except.error.inj h).symm⟩
    · exact absurd h (by simp)

end EntityScaffold.FileTree
