import EntityScaffold.Job.World
import EntityScaffold.Proofs.FileTree.Project
import EntityScaffold.Proofs.FileTree.Temporary

/-
Closed trees: whatever stands in them stands in a folder. In such a tree the way to a file is there with the file, unless
it leads through folders that it leaves again. No request that is made of a closed tree opens it, so all trees that jobs
come to are closed.
-/

namespace EntityScaffold

namespace FileTree

variable {t u : FileTree} {here l : Location} {ps : List Text} {p root q : Path} {s : Spot} {made written : Set Location}
variable {files : Set Path} {content : Octets}

/-- Whatever stands in the tree stands in a folder. -/
def IsClosed (t : FileTree) : Prop := ∀ l name n, t.get? (l ++ [name]) = some n → t.get? l = some .folder

/-- The way to a root is there, if it leaves any folder again. -/
def IsRooted (t : FileTree) (root : Path) : Prop := "..".toList ∈ root.parts → t.look root = .ok .folder

theorem IsClosed.above (closed : t.IsClosed) {n : Node} (hps : ps ≠ []) (h : t.get? (l ++ ps) = some n) :
    t.get? l = some .folder := by
  induction ps generalizing l with
  | nil => exact absurd rfl hps
  | cons part ps ih =>
    cases ps with
    | nil => exact closed l part n h
    | cons q qs =>
      rw [List.append_cons] at h
      exact closed l part _ (ih (List.cons_ne_nil q qs) h)

theorem IsClosed.of_nodes (h : ∀ e ∈ t.nodes, t.get? e.1.dropLast = some .folder) : t.IsClosed := by
  intro l name n hn
  rw [get?, if_neg (by simp)] at hn
  obtain ⟨e, he, -⟩ := Option.map_eq_some_iff.1 hn
  have above := h e (List.mem_of_find?_eq_some he)
  have same : e.1 = l ++ [name] := by simpa using List.find?_some he
  rwa [same, List.dropLast_concat] at above

theorem IsClosed.way (closed : t.IsClosed) (rooted : t.IsRooted root) (hq : q.IsSource)
    (file : t.get? (t.locationOf (root / q)) = some (.file content)) :
    ∀ l ∈ t.passedBy (root / q).parent, t.get? l = some .folder := by
  have above {l : Location} {qs : List Text} (hqs : qs ≠ []) (heq : t.locationOf (root / q) = l ++ qs) :
      t.get? l = some .folder := closed.above hqs (heq ▸ file)
  intro l hl
  rw [passedBy_div hq] at hl
  rcases List.mem_append.1 hl with hl | hl
  · by_cases up : "..".toList ∈ root.parts
    · exact (look_folder_iff.1 (rooted up)).2 l hl
    · have plain : ∀ part ∈ root.parts, part ≠ "..".toList := fun part hm he => up (he ▸ hm)
      obtain ⟨qs, -, ⟨rest, hrest⟩, rfl⟩ := prefix_of_mem_passed plain hl
      have ne : rest ++ q.parts ≠ [] := List.append_ne_nil_of_right_ne_nil _ hq.ne_nil
      refine above ne ?_
      rw [locationOf_div hq, locationOf, climb_plain plain, ← hrest]
      simp
  · have plain : ∀ part ∈ q.parent.parts, part ≠ "..".toList :=
      fun part hm => hq.plain part (List.mem_of_mem_dropLast hm)
    obtain ⟨qs, -, ⟨rest, hrest⟩, rfl⟩ := prefix_of_mem_passed plain hl
    have ne : rest ++ [q.name] ≠ [] := by simp
    refine above ne ?_
    rw [locationOf_div hq, Path.parts_eq hq.ne_nil, ← hrest]
    simp

theorem look_file_iff : t.look p = .ok .file ↔ ∃ content, t.read p = .ok content := by
  constructor
  · intro h
    unfold look at h
    split at h
    · next s hs =>
      split at h
      · exact absurd h (by simp)
      · exact absurd h (by simp)
      · next content hnode => exact ⟨content, by simp only [read, hs, bind, Except.bind, hnode]⟩
    all_goals exact absurd h (by simp)
  · rintro ⟨content, h⟩
    exact look_of_read h

/-- A name that is too long stays so while the folders before it stay. -/
theorem Change.follow_too_long (h : Change made written t u) (long : t.follow here ps = .error .nameTooLong) :
    u.follow here ps = .error .nameTooLong := by
  induction ps generalizing here with
  | nil => exact absurd long (by simp [follow])
  | cons part ps ih =>
    by_cases hup : part = "..".toList
    · subst hup
      rw [follow_up] at long ⊢
      exact ih long
    · by_cases short : longestName < (Utf8.encode part).length
      · rw [follow, if_neg hup, if_pos short]
      · cases ps with
        | nil =>
          rw [follow_last hup short] at long
          exact absurd long (by simp)
        | cons q qs =>
          cases hnode : t.get? (here ++ [part]) with
          | none =>
            rw [follow, if_neg hup, if_neg short] at long
            simp [hnode] at long
          | some n =>
            cases n with
            | file c =>
              rw [follow, if_neg hup, if_neg short] at long
              simp [hnode] at long
            | folder =>
              have ne : q :: qs ≠ [] := List.cons_ne_nil q qs
              rw [follow_into hup short ne hnode] at long
              rw [follow_into hup short ne (h.folder hnode)]
              exact ih long

theorem Change.spot_too_long (h : Change made written t u)
    (long : t.spot p = .error (.system .nameTooLong p.text none)) :
    u.spot p = .error (.system .nameTooLong p.text none) := by
  rw [spot] at long ⊢
  by_cases hnull : p.text.contains '\x00' = true
  · rw [if_pos hnull] at long
    exact absurd long (by simp)
  · rw [if_neg hnull] at long ⊢
    by_cases whole : longestPath ≤ (Utf8.encode p.text).length
    · rw [if_pos whole]
    · rw [if_neg whole] at long ⊢
      split at long
      · exact absurd long (by simp)
      · next reason hreason =>
        obtain rfl : reason = .nameTooLong := by simpa using long
        rw [h.work, h.follow_too_long hreason]

theorem Change.look_error (h : Change made written t u) {r : Refusal} (hlook : t.look p = .error r) :
    u.look p = .error r := by
  unfold look at hlook
  split at hlook
  · split at hlook <;> exact absurd hlook (by simp)
  · exact absurd hlook (by simp)
  · exact absurd hlook (by simp)
  · exact absurd hlook (by simp)
  · next r' notMissing notFolder notNull hspot =>
    obtain rfl := Except.error.inj hlook
    rcases spot_error_cases hspot with ⟨rfl, -⟩ | ⟨reason, rfl, ⟨rfl, -⟩ | ⟨rfl, -⟩ | ⟨rfl, -⟩⟩
    · exact absurd rfl notNull
    · exact absurd rfl (notMissing _ _)
    · exact absurd rfl (notFolder _ _)
    · rw [look, h.spot_too_long hspot]

/-- Closed trees whose working folder is there. -/
structure IsSound (t : FileTree) : Prop where
  closed : t.IsClosed
  work : t.get? t.work = some .folder

theorem isSound_empty : empty.IsSound := ⟨.of_nodes (by decide), by decide⟩

theorem IsClosed.climb (closed : t.IsClosed) (folder : t.get? here = some .folder)
    (way : ∀ l ∈ passed here ps, t.get? l = some .folder) : t.get? (climb here ps) = some .folder := by
  induction ps generalizing here with
  | nil => exact folder
  | cons part ps ih =>
    by_cases hup : part = "..".toList
    · subst hup
      rw [passed_up] at way
      rw [climb_up]
      refine ih ?_ way
      rcases here.eq_nil_or_concat with rfl | ⟨above, name, rfl⟩
      · rfl
      · rw [List.concat_eq_append] at folder ⊢
        rw [List.dropLast_concat]
        exact closed above name _ folder
    · rw [passed_on hup, List.forall_mem_cons] at way
      rw [climb_on hup]
      exact ih way.1 way.2

theorem IsClosed.put {above : Location} {name : Text} (closed : t.IsClosed) (folder : t.get? above = some .folder)
    (other : t.get? (above ++ [name]) ≠ some .folder) (n : Node) : (t.put (above ++ [name]) n).IsClosed := by
  have ne : above ++ [name] ≠ [] := by simp
  intro l name' n' hn'
  have apart {m : Location} (hm : t.get? m = some .folder) : m ≠ above ++ [name] := fun heq => other (heq ▸ hm)
  have kept {m : Location} (hm : t.get? m = some .folder) : (t.put (above ++ [name]) n).get? m = some .folder := by
    rw [get?_put ne, if_neg (apart hm), hm]
  rw [get?_put ne] at hn'
  split at hn'
  · next same =>
    obtain ⟨rfl, -⟩ := List.append_inj' same rfl
    exact kept folder
  · exact kept (closed l name' n' hn')

theorem IsSound.folder (sound : t.IsSound) (folders : ∀ l ∈ t.passedBy p, t.get? l = some .folder) :
    t.get? (t.locationOf p) = some .folder := by
  have start : t.get? (t.start p) = some .folder := by
    unfold FileTree.start
    split
    · rfl
    · exact sound.work
  exact sound.closed.climb start folders

theorem IsSound.put_into {above : Location} {name : Text} (sound : t.IsSound) (folder : t.get? above = some .folder)
    (other : t.get? (above ++ [name]) ≠ some .folder) (n : Node) : (t.put (above ++ [name]) n).IsSound := by
  have working : t.work ≠ above ++ [name] := fun heq => other (heq ▸ sound.work)
  exact ⟨sound.closed.put folder other n, (get?_put_of_ne working n).trans sound.work⟩

theorem IsSound.put (sound : t.IsSound) (named : p.HasName) (folders : ∀ l ∈ t.passedBy p.parent, t.get? l = some .folder)
    (other : t.get? (t.locationOf p) ≠ some .folder) (n : Node) : (t.put (t.locationOf p) n).IsSound := by
  rw [locationOf_eq named] at other ⊢
  exact sound.put_into (sound.folder folders) other n

theorem IsSound.put_spot (sound : t.IsSound) (hspot : t.spot p = .ok s) (other : s.node ≠ some .folder) (n : Node) :
    (t.put s.location n).IsSound := by
  have named : p.HasName := named_of_spot hspot (Or.inr other)
  obtain ⟨-, folders, rfl⟩ := spot_named named hspot
  exact sound.put named folders other n

theorem IsSound.makeFolder (sound : t.IsSound) (h : t.makeFolder p = .ok u) : u.IsSound := by
  unfold FileTree.makeFolder at h
  cases hspot : t.spot p with
  | error r => simp [hspot, bind, Except.bind] at h
  | ok s =>
    simp only [hspot, bind, Except.bind] at h
    split at h
    · exact absurd h (by simp)
    · next hnone =>
      obtain rfl := Except.ok.inj h
      exact sound.put_spot hspot (by simp [hnone]) _

theorem IsSound.write (sound : t.IsSound) (h : t.write p content = .ok u) : u.IsSound := by
  unfold FileTree.write at h
  cases hspot : t.spot p with
  | error r => simp [hspot, bind, Except.bind] at h
  | ok s =>
    simp only [hspot, bind, Except.bind] at h
    split at h
    · exact absurd h (by simp)
    · next other =>
      obtain rfl := Except.ok.inj h
      exact sound.put_spot hspot other _

theorem IsSound.makeTemporary {place : Location} (sound : t.IsSound) (h : t.makeTemporary p = .ok (place, u)) :
    u.IsSound := by
  obtain ⟨next, -, folders, -, rfl⟩ := makeTemporary_ok h
  obtain ⟨m, rfl⟩ := next.inFolder
  exact sound.put_into (sound.folder folders) (by simp [next.free]) _

theorem IsSound.fill (sound : t.IsSound) (place : Location) (content : Octets) : (t.fill place content).IsSound := by
  unfold FileTree.fill
  split
  · next c file =>
    rcases place.eq_nil_or_concat with rfl | ⟨above, name, rfl⟩
    · exact absurd file (by simp [get?])
    · rw [List.concat_eq_append] at file ⊢
      exact sound.put_into (sound.closed above name _ file) (by simp [file]) _
  · exact sound

theorem IsSound.unlink (sound : t.IsSound) (file : t.get? l = some (.file content)) : (t.unlink l).IsSound := by
  have ne : l ≠ [] := by
    rintro rfl
    exact absurd file (by simp [get?])
  have kept {m : Location} (hm : t.get? m = some .folder) : (t.unlink l).get? m = some .folder := by
    rw [get?_unlink ne, if_neg, hm]
    rintro rfl
    simp [file] at hm
  refine ⟨fun m name n hn => kept ?_, kept sound.work⟩
  rw [get?_unlink ne] at hn
  split at hn
  · exact absurd hn (by simp)
  · exact sound.closed m name n hn

theorem IsSound.move {place : Location} (sound : t.IsSound) (h : t.move place p = .ok u) : u.IsSound := by
  obtain ⟨c, file, -, named, folders, free, rfl⟩ := move_ok h
  have ne : place ≠ [] := by
    rintro rfl
    exact absurd file (by simp [get?])
  refine (sound.unlink file).put named (fun m hm => ?_) ?_ _
  · rw [get?_unlink ne, if_neg, folders m hm]
    rintro rfl
    simp [folders _ hm] at file
  · rw [get?_unlink ne]
    split
    · simp
    · exact free

theorem IsSound.discard (sound : t.IsSound) (place : Location) : (t.discard place).IsSound := by
  unfold FileTree.discard
  split
  · next c file => exact sound.unlink file
  · exact sound

end FileTree

namespace World

variable {α : Type} {w : World}

theorem tree_askName (label : Text) (ls : List Text) : (w.askName label ls).2.tree = w.tree := by
  induction ls generalizing w with
  | nil => rfl
  | cons l ls ih =>
    unfold askName
    split
    · rfl
    · exact ih

theorem isSound_change (sound : w.tree.IsSound) {r : Except FileTree.Refusal FileTree}
    (h : ∀ u, r = .ok u → u.IsSound) : (w.change r).2.tree.IsSound := by
  cases r with
  | ok u => exact h u rfl
  | error _ => exact sound

theorem isSound_answer (sound : w.tree.IsSound) (r : Request) : (w.answer r).2.tree.IsSound := by
  cases r with
  | look | read | time | note | print => exact sound
  | makeFolder p => exact isSound_change sound fun _ h => sound.makeFolder h
  | write p content => exact isSound_change sound fun _ h => sound.write h
  | temporary p =>
    dsimp only [answer]
    split
    · next h => exact sound.makeTemporary h
    · exact sound
  | fill place content => exact sound.fill place content
  | move place p => exact isSound_change sound fun _ h => sound.move h
  | discard place => exact sound.discard place
  | name label =>
    rw [show (w.answer (.name label)).2.tree = w.tree from tree_askName label w.input]
    exact sound

/-- Whatever a job asks for: the tree that it leaves is sound, if the one that it starts in is. -/
theorem isSound_run (sound : w.tree.IsSound) (j : Job α) : (run j w).2.tree.IsSound := by
  induction j generalizing w with
  | done _ => exact sound
  | failed _ => exact sound
  | ask r next ih => exact ih _ (isSound_answer sound r)

end World

end EntityScaffold
