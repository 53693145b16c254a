import EntityScaffold.FileTree.Requests
import Mathlib.Data.List.Infix

/-
Following a path part by part, and what a path shows at which a file can be read.
-/

namespace EntityScaffold

theorem Text.joinWith_singleton (sep t : Text) : Text.joinWith sep [t] = t := List.intercalate_singleton

theorem Text.joinWith_append (sep : Text) {ps qs : List Text} (hp : ps ≠ []) (hq : qs ≠ []) :
    Text.joinWith sep (ps ++ qs) = Text.joinWith sep ps ++ (sep ++ Text.joinWith sep qs) := by
  induction ps with
  | nil => exact absurd rfl hp
  | cons p ps ih =>
    cases ps with
    | nil =>
      obtain ⟨q, qs, rfl⟩ := List.exists_cons_of_ne_nil hq
      simp [Text.joinWith, List.intercalate_cons_cons]
    | cons r ps =>
      have later := ih (List.cons_ne_nil r ps)
      simp only [Text.joinWith, List.cons_append, List.intercalate_cons_cons, List.append_assoc] at later ⊢
      rw [later]

theorem Text.joinWith_prefix (sep : Text) {ps : List Text} (h : ps ≠ []) (qs : List Text) :
    Text.joinWith sep ps <+: Text.joinWith sep (ps ++ qs) := by
  by_cases hq : qs = []
  · rw [hq, List.append_nil]
  · rw [Text.joinWith_append sep h hq]
    exact List.prefix_append _ _

theorem Path.text_of_parts {p : Path} (h : p.parts ≠ []) : p.text = p.root.text ++ Text.joinWith ['/'] p.parts := by
  obtain ⟨root, parts⟩ := p
  cases parts with
  | nil => exact absurd rfl h
  | cons q qs => cases root <;> rfl

theorem Path.text_parent {p : Path} (h : p.parent.parts ≠ []) : p.parent.text <+: p.text := by
  have hparts : p.parts ≠ [] := fun hp => h (by simp [Path.parent, hp])
  have whole : p.parent.parts ++ [p.parts.getLast hparts] = p.parts := List.dropLast_concat_getLast hparts
  have joined := Text.joinWith_prefix ['/'] h [p.parts.getLast hparts]
  rw [Path.text_of_parts h, Path.text_of_parts hparts, ← whole]
  exact (List.prefix_append_right_inj _).2 joined

namespace FileTree

variable {t : FileTree} {here : Location} {p : Path} {s : Spot} {content : Octets}

theorem follow_up (t : FileTree) (here : Location) (ps : List Text) :
    t.follow here ("..".toList :: ps) = t.follow here.dropLast ps := by
  rw [follow, if_pos rfl]

theorem follow_last {part : Text} (hup : part ≠ "..".toList) (short : ¬ longestName < (Utf8.encode part).length) :
    t.follow here [part] = .ok ⟨here ++ [part], t.get? (here ++ [part]), true⟩ := by
  rw [follow, if_neg hup, if_neg short]

theorem follow_into {part : Text} {ps : List Text} (hup : part ≠ "..".toList)
    (short : ¬ longestName < (Utf8.encode part).length) (hps : ps ≠ [])
    (hfolder : t.get? (here ++ [part]) = some .folder) : t.follow here (part :: ps) = t.follow (here ++ [part]) ps := by
  obtain ⟨q, qs, rfl⟩ := List.exists_cons_of_ne_nil hps
  rw [follow, if_neg hup, if_neg short]
  simp only [hfolder]

theorem follow_cases {part : Text} {ps : List Text} (h : t.follow here (part :: ps) = .ok s) :
    (part = "..".toList ∧ t.follow here.dropLast ps = .ok s) ∨
      (part ≠ "..".toList ∧ ¬ longestName < (Utf8.encode part).length ∧
        ((ps = [] ∧ s = ⟨here ++ [part], t.get? (here ++ [part]), true⟩) ∨
          (ps ≠ [] ∧ t.get? (here ++ [part]) = some .folder ∧ t.follow (here ++ [part]) ps = .ok s))) := by
  by_cases hup : part = "..".toList
  · left
    rw [hup, follow_up] at h
    exact ⟨hup, h⟩
  · right
    by_cases long : longestName < (Utf8.encode part).length
    · rw [follow, if_neg hup, if_pos long] at h
      exact absurd h (by simp)
    · refine ⟨hup, long, ?_⟩
      cases ps with
      | nil =>
        rw [follow_last hup long] at h
        exact Or.inl ⟨rfl, (Except.ok.inj h).symm⟩
      | cons q qs =>
        right
        cases hnode : t.get? (here ++ [part]) with
        | none =>
          rw [follow, if_neg hup, if_neg long] at h
          simp [hnode] at h
        | some n =>
          cases n with
          | file c =>
            rw [follow, if_neg hup, if_neg long] at h
            simp [hnode] at h
          | folder =>
            rw [follow_into hup long (List.cons_ne_nil q qs) hnode] at h
            exact ⟨List.cons_ne_nil q qs, rfl, h⟩

theorem follow_concat {ps : List Text} {name : Text} (hname : name ≠ "..".toList)
    (h : t.follow here (ps ++ [name]) = .ok s) :
    s.isNamed = true ∧ ∃ s', t.follow here ps = .ok s' ∧ s'.node = some .folder := by
  induction ps generalizing here with
  | nil =>
    rcases follow_cases h with ⟨hup, -⟩ | ⟨-, -, ⟨-, rfl⟩ | ⟨hne, -, -⟩⟩
    · exact absurd hup hname
    · exact ⟨rfl, _, rfl, rfl⟩
    · exact absurd rfl hne
  | cons part ps ih =>
    rcases follow_cases h with ⟨rfl, h⟩ | ⟨hup, short, ⟨hnil, -⟩ | ⟨-, hfolder, h⟩⟩
    · rw [follow_up]
      exact ih h
    · simp at hnil
    · obtain ⟨named, s', hs', hnode⟩ := ih h
      cases ps with
      | nil => exact ⟨named, _, follow_last hup short, hfolder⟩
      | cons q qs =>
        rw [follow_into hup short (List.cons_ne_nil q qs) hfolder]
        exact ⟨named, s', hs', hnode⟩

theorem spot_of_read (h : t.read p = .ok content) :
    ∃ s, t.spot p = .ok s ∧ s.node = some (.file content) ∧ p.text.contains '\x00' = false ∧
      ¬ longestPath ≤ (Utf8.encode p.text).length ∧
      t.follow (if p.isAbsolute then [] else t.work) p.parts = .ok s := by
  unfold read at h
  cases hspot : t.spot p with
  | error r =>
    rw [hspot] at h
    exact absurd h (by simp [Bind.bind, Except.bind])
  | ok s =>
    simp only [hspot, Bind.bind, Except.bind] at h
    have hnode : s.node = some (.file content) := by
      split at h
      · next hn => rw [hn, Except.ok.inj h]
      · exact absurd h (by simp)
      · exact absurd h (by simp)
    unfold spot at hspot
    split at hspot
    · exact absurd hspot (by simp)
    · next hnull =>
      split at hspot
      · exact absurd hspot (by simp)
      · next hlong =>
        refine ⟨s, rfl, hnode, by simpa using hnull, hlong, ?_⟩
        split at hspot
        · next s' hs' => rw [hs', Except.ok.inj hspot]
        · exact absurd hspot (by simp)

theorem look_of_read (h : t.read p = .ok content) : t.look p = .ok .file := by
  obtain ⟨s, hs, hnode, -⟩ := spot_of_read h
  rw [look, hs]
  simp only [hnode]

end FileTree

end EntityScaffold
