import EntityScaffold.Proofs.FileTree.Project

/-
Room for temporary files. Below one root, the whole path of the temporary file next to a source file grows with the source
file's own path, so what has room is decided by the longest of these.
-/

namespace EntityScaffold

namespace FileTree

variable {t : FileTree} {p root q q' : Path} {ps qs : List Text} {name : Text}

theorem length_encode_temporaryName (name : Text) :
    (Utf8.encode (temporaryName anyMiddle name)).length = (Utf8.encode name).length + 14 := by
  have around : (Utf8.encode ".".toList).length + (Utf8.encode ".".toList).length +
      (Utf8.encode anyMiddle).length + (Utf8.encode ".tmp".toList).length = 14 := by decide
  simp only [temporaryName, Utf8.encode_append, List.length_append]
  omega

theorem hasRoom_iff : t.HasRoom p ↔
    (Utf8.encode p.name).length + 14 ≤ longestName ∧ (Utf8.encode (t.wholeTemporary p).text).length < longestPath := by
  rw [← length_encode_temporaryName]
  exact ⟨fun ⟨name, whole⟩ => ⟨Nat.not_lt.1 name, Nat.not_le.1 whole⟩,
    fun ⟨name, whole⟩ => ⟨Nat.not_lt.2 name, Nat.not_le.2 whole⟩⟩

theorem settled_append (ps : List Text) (plain : ∀ part ∈ qs, part ≠ "..".toList) :
    settled (ps ++ qs) = settled ps ++ qs := by
  induction qs using List.reverseRecOn with
  | nil => simp
  | append_singleton qs part ih =>
    obtain ⟨before, last⟩ := List.forall_mem_append.1 plain
    rw [settled, ← List.append_assoc, List.foldl_concat, ← settled, ih before,
      if_neg (last part List.mem_cons_self), List.append_assoc]

theorem length_joinWith_concat (ps : List Text) (name : Text) :
    (Utf8.encode (Text.joinWith ['/'] (ps ++ [temporaryName anyMiddle name]))).length =
      (Utf8.encode (Text.joinWith ['/'] (ps ++ [name]))).length + 14 := by
  by_cases h : ps = []
  · simp only [h, List.nil_append, Text.joinWith_singleton, length_encode_temporaryName]
  · rw [Text.joinWith_append _ h (by simp), Text.joinWith_append _ h (by simp)]
    simp only [Text.joinWith_singleton, Utf8.encode_append, List.length_append, length_encode_temporaryName]
    omega

/-- Below a root, the whole path of a temporary file is longer than the path of its source file by the same number always. -/
theorem exists_length_wholeTemporary (t : FileTree) (root : Path) : ∃ n, ∀ q : Path, q.IsSource →
    (Utf8.encode (t.wholeTemporary (root / q)).text).length = n + (Utf8.encode q.text).length := by
  let folder := settled ((if root.isAbsolute then [] else t.work) ++ root.parts)
  let start : Root := if root.isAbsolute then root.root else .slash
  let way : Text := if folder = [] then [] else Text.joinWith ['/'] folder ++ ['/']
  refine ⟨(Utf8.encode (start.text ++ way)).length + 14, fun q hq => ?_⟩
  have plain : ∀ part ∈ q.parent.parts, part ≠ "..".toList := fun part hm => hq.plain part (List.mem_of_mem_dropLast hm)
  have whole : t.wholeTemporary (root / q) = ⟨start, folder ++ (q.parent.parts ++ [temporaryName anyMiddle q.name])⟩ := by
    rw [wholeTemporary, Path.isAbsolute, hq.root_div, hq.parent_div, hq.name_div, ← List.append_assoc,
      settled_append _ plain, List.append_assoc]
    rfl
  have joined : Text.joinWith ['/'] (folder ++ (q.parent.parts ++ [temporaryName anyMiddle q.name])) =
      way ++ Text.joinWith ['/'] (q.parent.parts ++ [temporaryName anyMiddle q.name]) := by
    by_cases h : folder = []
    · simp [way, h]
    · simp only [way, if_neg h]
      rw [Text.joinWith_append _ h (by simp), List.append_assoc]
  have own : q.text = Text.joinWith ['/'] (q.parent.parts ++ [q.name]) := by
    rw [Path.text_of_parts hq.ne_nil, hq.below, Path.parts_eq hq.ne_nil]
    rfl
  rw [whole, Path.text_of_parts (by simp), own]
  dsimp only
  rw [joined]
  simp only [Utf8.encode_append, List.length_append, length_joinWith_concat]
  omega

/-- Where a source file has room for a temporary file, so has every one with a path that is no longer. -/
theorem HasRoom.of_le (h : t.HasRoom (root / q')) (hq' : q'.IsSource) (hq : q.IsSource)
    (le : (Utf8.encode q.text).length ≤ (Utf8.encode q'.text).length)
    (name : (Utf8.encode q.name).length + 14 ≤ longestName) : t.HasRoom (root / q) := by
  obtain ⟨n, length⟩ := exists_length_wholeTemporary t root
  have whole := (hasRoom_iff.1 h).2
  rw [length q' hq'] at whole
  refine hasRoom_iff.2 ⟨hq.name_div root ▸ name, ?_⟩
  rw [length q hq]
  omega

end FileTree

end EntityScaffold
