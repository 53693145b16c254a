import EntityScaffold.Proofs.FileTree.Change
import Mathlib.Data.List.Nodup
import Mathlib.Data.List.Perm.Subperm

/-
A temporary file from its making to its end. It stands where nothing stood before, so that a tree is the same again once
it is removed; and when it is moved to its path, only the file there has changed.
-/

namespace EntityScaffold.FileTree

variable {t u : FileTree} {p : Path} {s : Spot} {l place folder : Location} {name : Text} {content octets : Octets}

theorem get?_eq_none_iff (hl : l ≠ []) : t.get? l = none ↔ ∀ e ∈ t.nodes, e.1 ≠ l := by
  rw [get?, if_neg (by simpa using hl), Option.map_eq_none_iff, List.find?_eq_none]
  simp

theorem get?_unlink (hl : l ≠ []) (m : Location) : (t.unlink l).get? m = if m = l then none else t.get? m := by
  unfold get? unlink
  by_cases hm : m = l
  · subst hm
    rw [if_pos rfl, if_neg (by simpa using hl), Option.map_eq_none_iff, List.find?_filter, List.find?_eq_none]
    simp
  · rw [if_neg hm]
    congr 2
    rw [List.find?_filter]
    congr 1
    funext e
    by_cases he : e.1 = m <;> simp [he, hm]

theorem unlink_of_none (hl : l ≠ []) (hnone : t.get? l = none) : t.unlink l = t := by
  have kept : t.nodes.filter (fun e => e.1 ≠ l) = t.nodes :=
    List.filter_eq_self.2 fun e he => by simpa using (get?_eq_none_iff hl).1 hnone e he
  rw [unlink, kept]

theorem unlink_put (l : Location) (n : Node) : (t.put l n).unlink l = t.unlink l := by
  simp [unlink, put, List.filter_append]

theorem put_put (l : Location) (n n' : Node) : (t.put l n).put l n' = t.put l n' := by
  simp [put, List.filter_append]

theorem temporaryName_injective (name : Text) : Function.Injective fun middle => temporaryName middle name := by
  intro m m' h
  simpa [temporaryName] using h

theorem temporaryName_ne (m name : Text) : temporaryName m name ≠ name := by
  intro h
  have longer := congrArg List.length h
  simp only [temporaryName, List.length_append, String.length_toList, show ".".length = 1 from rfl,
    show ".tmp".length = 4 from rfl] at longer
  omega

theorem middle_injective : Function.Injective middle := by
  intro m n h
  simpa [middle] using congrArg List.length h

/-- There are more middles to try than there are nodes, so one of them is free. -/
theorem exists_free (t : FileTree) (folder : Location) (name : Text) :
    ∃ n ∈ List.range (t.nodes.length + 1), t.get? (folder ++ [temporaryName (middle n) name]) = none := by
  let place (n : Nat) : Location := folder ++ [temporaryName (middle n) name]
  have distinct : Function.Injective place := by
    intro m n h
    exact middle_injective (temporaryName_injective name (by simpa [place] using h))
  by_contra taken
  push Not at taken
  have inside : (List.range (t.nodes.length + 1)).map place ⊆ t.nodes.map (·.1) := by
    intro l hl
    obtain ⟨n, hn, rfl⟩ := List.mem_map.1 hl
    have there := mt (get?_eq_none_iff (l := place n) (by simp [place])).2 (taken n hn)
    push Not at there
    simpa using there
  have nodup : ((List.range (t.nodes.length + 1)).map place).Nodup := List.nodup_range.map distinct
  have few := (nodup.subperm inside).length_le
  simp only [List.length_map, List.length_range] at few
  omega

theorem get?_freeMiddle (t : FileTree) (folder : Location) (name : Text) :
    t.get? (folder ++ [temporaryName (t.freeMiddle folder name) name]) = none := by
  obtain ⟨n, hn, free⟩ := exists_free t folder name
  unfold freeMiddle
  dsimp only
  generalize hfind : ((List.range (t.nodes.length + 1)).map middle).find? _ = found
  cases found with
  | none =>
    have taken := List.find?_eq_none.1 hfind (middle n) (List.mem_map_of_mem hn)
    simp [free] at taken
  | some m => simpa using List.find?_some hfind

/-- A temporary file for a path: it stands in the path's folder, under a name of its own that nothing had there. -/
structure IsNextTo (t : FileTree) (p : Path) (place : Location) : Prop where
  inFolder : ∃ m, place = t.locationOf p.parent ++ [temporaryName m p.name]
  free : t.get? place = none

theorem IsNextTo.ne_nil (h : t.IsNextTo p place) : place ≠ [] := by
  obtain ⟨m, rfl⟩ := h.inFolder
  simp

theorem IsNextTo.ne_locationOf (h : t.IsNextTo p place) (named : p.HasName) : t.locationOf p ≠ place := by
  obtain ⟨m, rfl⟩ := h.inFolder
  rw [locationOf_eq named]
  intro same
  exact temporaryName_ne m p.name (by simpa using same.symm)

theorem IsNextTo.kept (h : t.IsNextTo p place) (n : Node) (hl : t.get? l = some .folder) :
    (t.put place n).get? l = some .folder := by
  rw [get?_put h.ne_nil, if_neg, hl]
  rintro rfl
  simp [h.free] at hl

theorem makeTemporary_ok (h : t.makeTemporary p = .ok (place, u)) :
    t.IsNextTo p place ∧ p.parent.Fits ∧ (∀ l ∈ t.passedBy p.parent, t.get? l = some .folder) ∧
      t.HasRoom p ∧ u = t.put place (.file []) := by
  unfold makeTemporary at h
  dsimp only at h
  split at h
  · exact absurd h (by simp)
  split at h
  · exact absurd h (by simp)
  rename_i whole
  split at h
  · exact absurd h (by simp)
  rename_i name
  split at h
  · exact absurd h (by simp)
  · exact absurd h (by simp)
  rename_i s hspot
  split at h
  · exact absurd h (by simp)
  · exact absurd h (by simp)
  rename_i hfolder
  obtain ⟨fits, folders⟩ := spot_folder_iff.1 ⟨s, hspot, hfolder⟩
  obtain ⟨rfl, rfl⟩ := Prod.mk.inj (Except.ok.inj h)
  have location : s.location = t.locationOf p.parent := location_of_follow (follow_of_spot hspot).2.2
  exact ⟨⟨⟨_, by rw [location]⟩, get?_freeMiddle t s.location p.name⟩, fits, folders, ⟨name, whole⟩, rfl⟩

/-- In a folder that is there, a temporary file is refused only where it has no room, or to a path that holds a null
character. -/
theorem makeTemporary_error {r : Refusal} (fits : p.parent.Fits)
    (folders : ∀ l ∈ t.passedBy p.parent, t.get? l = some .folder) (h : t.makeTemporary p = .error r) :
    (r = .nullInPath ∧ '\x00' ∈ p.text) ∨
      ((∃ reason path target, r = .system reason path target) ∧ ¬ t.HasRoom p) := by
  obtain ⟨s, hspot, hfolder⟩ := spot_folder_iff.2 ⟨fits, folders⟩
  unfold makeTemporary at h
  dsimp only at h
  split at h
  · next hnull => exact Or.inl ⟨(Except.error.inj h).symm, by simpa using hnull⟩
  split at h
  · next long => exact Or.inr ⟨⟨_, _, _, (Except.error.inj h).symm⟩, fun room => room.whole long⟩
  split at h
  · next long => exact Or.inr ⟨⟨_, _, _, (Except.error.inj h).symm⟩, fun room => room.name long⟩
  · simp only [hspot, hfolder] at h
    exact absurd h (by simp)

theorem fill_of_file (h : t.get? place = some (.file content)) (octets : Octets) :
    t.fill place octets = t.put place (.file octets) := by
  rw [fill, h]

theorem discard_of_file (h : t.get? place = some (.file content)) : t.discard place = t.unlink place := by
  rw [discard, h]

theorem move_ok (h : t.move place p = .ok u) :
    ∃ content, t.get? place = some (.file content) ∧ p.Fits ∧ p.HasName ∧
      (∀ l ∈ t.passedBy p.parent, t.get? l = some .folder) ∧ t.get? (t.locationOf p) ≠ some .folder ∧
      u = (t.unlink place).put (t.locationOf p) (.file content) := by
  unfold move at h
  dsimp only at h
  split at h
  · next content file =>
    split at h
    · exact absurd h (by simp)
    · exact absurd h (by simp)
    · next s hspot =>
      split at h
      · exact absurd h (by simp)
      · next hnamed =>
        have named : p.HasName := named_of_spot hspot (Or.inl (by simpa using hnamed))
        obtain ⟨fits, folders, rfl⟩ := spot_named named hspot
        split at h
        · exact absurd h (by simp)
        · next free => exact ⟨content, file, fits, named, folders, free, (Except.ok.inj h).symm⟩
  · exact absurd h (by simp)

theorem move_of_file (h : t.get? place = some (.file content)) (fits : p.Fits) (named : p.HasName)
    (folders : ∀ l ∈ t.passedBy p.parent, t.get? l = some .folder) (free : t.get? (t.locationOf p) ≠ some .folder) :
    t.move place p = .ok ((t.unlink place).put (t.locationOf p) (.file content)) := by
  have hspot := spot_in_folder fits named folders
  unfold move
  simp only [h, hspot, Bool.not_true, Bool.false_eq_true, if_false]

theorem move_error {r : Refusal} (h : t.move place p = .error r) :
    (r = .nullInPath ∧ '\x00' ∈ p.text) ∨ ∃ reason path target, r = .system reason path target := by
  unfold move at h
  dsimp only at h
  split at h
  · split at h
    · exact Or.inr ⟨_, _, _, (Except.error.inj h).symm⟩
    · next hspot =>
      rcases spot_error_cases hspot with ⟨-, hnull⟩ | ⟨reason, hr, -⟩
      · exact Or.inl ⟨(Except.error.inj h).symm, hnull⟩
      · exact absurd hr (by simp)
    · split at h
      · exact Or.inr ⟨_, _, _, (Except.error.inj h).symm⟩
      · split at h
        · exact Or.inr ⟨_, _, _, (Except.error.inj h).symm⟩
        · exact absurd h (by simp)
  · exact Or.inr ⟨_, _, _, (Except.error.inj h).symm⟩

namespace IsNextTo

theorem unlink_put (h : t.IsNextTo p place) (n : Node) : (t.put place n).unlink place = t := by
  rw [FileTree.unlink_put, unlink_of_none h.ne_nil h.free]

theorem discard_put (h : t.IsNextTo p place) : (t.put place (.file octets)).discard place = t := by
  rw [discard_of_file (get?_put_self h.ne_nil _), h.unlink_put]

theorem get?_put_locationOf (h : t.IsNextTo p place) (named : p.HasName) (n : Node) :
    (t.put place n).get? (t.locationOf p) = t.get? (t.locationOf p) :=
  get?_put_of_ne (h.ne_locationOf named) n

theorem folder_of_put (h : t.IsNextTo p place) (hl : (t.put place (.file octets)).get? l = some .folder) :
    t.get? l = some .folder := by
  rw [get?_put h.ne_nil] at hl
  split at hl
  · exact absurd hl (by simp)
  · exact hl

theorem move_put_ok (h : t.IsNextTo p place) (hmove : (t.put place (.file octets)).move place p = .ok u) :
    t.Admits p ∧ u = t.put (t.locationOf p) (.file octets) := by
  obtain ⟨content, file, fits, named, folders, free, rfl⟩ := move_ok hmove
  rw [get?_put_self h.ne_nil] at file
  obtain rfl : octets = content := by simpa using file
  have same := h.get?_put_locationOf named (.file octets)
  have kept : ∀ l ∈ t.passedBy p.parent, t.get? l = some .folder := fun l hl => h.folder_of_put (folders l hl)
  rw [h.unlink_put]
  exact ⟨admits_of_folders fits named kept (same ▸ free), rfl⟩

theorem look_put_of_admits (h : t.IsNextTo p place) (admits : t.Admits p)
    (folders : ∀ l ∈ t.passedBy p.parent, t.get? l = some .folder) (n : Node) :
    ∃ sight, (t.put place n).look p = .ok sight := by
  have kept : ∀ l ∈ t.passedBy p.parent, (t.put place n).get? l = some .folder :=
    fun l hl => h.kept n (folders l hl)
  exact look_of_spot (spot_in_folder admits.fits admits.named kept)

theorem move_put_of_admits (h : t.IsNextTo p place) (admits : t.Admits p)
    (folders : ∀ l ∈ t.passedBy p.parent, t.get? l = some .folder) (octets : Octets) :
    (t.put place (.file octets)).move place p = .ok (t.put (t.locationOf p) (.file octets)) := by
  have same := h.get?_put_locationOf admits.named (.file octets)
  have file : (t.put place (.file octets)).get? place = some (.file octets) := get?_put_self h.ne_nil _
  have kept : ∀ l ∈ t.passedBy p.parent, (t.put place (.file octets)).get? l = some .folder :=
    fun l hl => h.kept (.file octets) (folders l hl)
  have moved := move_of_file file admits.fits admits.named kept (same.symm ▸ admits.free)
  rwa [h.unlink_put] at moved

end IsNextTo

end EntityScaffold.FileTree
