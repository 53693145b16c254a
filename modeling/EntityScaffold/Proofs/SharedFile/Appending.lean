import EntityScaffold.Proofs.SharedFile.Characters
import EntityScaffold.Proofs.SharedFile.Snippet

/-
Sections as lists that only grow. A section that takes a snippet is found again, with the snippet's lines at its end and all
else as it was; so snippets that are appended one after the other stand in it in that order, and each of them stays.
-/

namespace EntityScaffold.SharedFile

open Text (ended)

variable {content name x y : Text} {s : Section}

/-- The indentation that a section's new lines take: that of the line of its end marker. -/
def Section.indent (s : Section) : Text := s.after.takeWhile isIndent

def Section.text (s : Section) : Text := s.before ++ s.body ++ s.after

/-- The section with a snippet as its last lines, unless it holds the snippet. -/
def Section.taking (s : Section) (x : Text) : Section :=
  if present s.body x then s else { s with body := s.body ++ indented s.indent x }

/-- The snippets that a body does not hold when it is their turn, after the ones before them were appended to it. -/
def fresh (indent : Text) : Text → List Text → List Text
  | _, [] => []
  | body, x :: xs => if present body x then fresh indent body xs else x :: fresh indent (body ++ indented indent x) xs

theorem Section.before_taking (s : Section) (x : Text) : (s.taking x).before = s.before := by
  unfold Section.taking
  split <;> rfl

theorem Section.after_taking (s : Section) (x : Text) : (s.taking x).after = s.after := by
  unfold Section.taking
  split <;> rfl

theorem Section.indent_taking (s : Section) (x : Text) : (s.taking x).indent = s.indent := by
  rw [Section.indent, s.after_taking, Section.indent]

theorem insertIntoSection?_eq (found : section? content name = some s) (x : Text) :
    insertIntoSection? content name x = some (s.taking x).text := by
  rw [insertIntoSection?, found, Option.map_some, ← append_of_section? found, Section.taking]
  split
  · rfl
  · simp [Section.append, Section.text, Section.indent]

/-- Lines that enter at the end of a section are in it when it is looked for again, if none of them ends it. -/
theorem section?_extended (hname : '\n' ∉ name) (found : section? content name = some s) {new : List Text}
    (oneLine : ∀ l ∈ new, '\n' ∉ l) (ends : ∀ l ∈ new, ¬ endMarker name <:+: l) :
    (section? (s.before ++ (s.body ++ ended new) ++ s.after) name) = some { s with body := s.body ++ ended new } := by
  rw [section?_eq_tagged? hname] at found
  obtain ⟨t, ht, rfl⟩ := Option.map_eq_some_iff.1 found
  have line : ∀ l ∈ t.before ++ (t.body ++ t.closing :: t.after), '\n' ∉ l := fun l hl =>
    Text.not_mem_of_mem_splitAt (tagged?_lines ht ▸ hl)
  rw [section?_eq_tagged? hname, ← List.append_assoc, t.lines_extended line oneLine, tagged?_extended ht ends]
  simp [Tagged.toSection]

theorem endMarker_starts (name : Text) : ∃ r, endMarker name = '/' :: r := ⟨_, rfl⟩

theorem section?_taking (hname : '\n' ∉ name) (found : section? content name = some s)
    (unended : ¬ endMarker name <:+: x) : section? (s.taking x).text name = some (s.taking x) := by
  unfold Section.taking
  split
  · rw [Section.text, append_of_section? found, found]
  · have indentation : ∀ c ∈ s.indent, isIndent c = true := fun c hc => List.mem_takeWhile_imp hc
    have oneLine : ∀ l ∈ indentedLines s.indent x, '\n' ∉ l := by
      intro l hl
      rcases infix_of_mem_indentedLines hl with rfl | ⟨m, rfl, -, hm⟩
      · exact List.not_mem_nil
      · intro hmem
        rcases List.mem_append.1 hmem with hi | hi
        · exact absurd (indentation _ hi) (by decide)
        · exact hm hi
    have ends : ∀ l ∈ indentedLines s.indent x, ¬ endMarker name <:+: l := by
      intro l hl he
      rcases infix_of_mem_indentedLines hl with rfl | ⟨m, rfl, hm, -⟩
      · exact endMarker_ne_nil name (List.infix_nil.1 he)
      · obtain ⟨r, hr⟩ := endMarker_starts name
        rw [hr, Text.infix_gap_append_iff (fun c hc => isBlank_of_isIndent (indentation c hc)) (by decide), ← hr] at he
        exact unended (he.trans hm)
    rw [Section.text, indented_eq_ended]
    exact section?_extended hname found oneLine ends

theorem Section.present_taking (held : present s.body x = true) (y : Text) : present (s.taking y).body x = true := by
  unfold Section.taking
  split
  · exact held
  · obtain ⟨visible, inside⟩ := present_iff.1 held
    exact present_iff.2 ⟨visible, fun l hl => (inside l hl).trans (List.prefix_append _ _).isInfix⟩

theorem Section.present_taking_self (visible : visibleLines x ≠ []) (s : Section) :
    present (s.taking x).body x = true := by
  unfold Section.taking
  split
  · assumption
  · refine present_iff.2 ⟨visible, fun l hl => ?_⟩
    exact ((isVisible_of_mem hl).infix_indented s.indent).trans (List.suffix_append _ _).isInfix

/-- Snippets offered to a section one after the other: those that it does not hold come after its body, in their order. -/
theorem foldl_taking (s : Section) (xs : List Text) :
    xs.foldl Section.taking s =
      { s with body := s.body ++ (fresh s.indent s.body xs).flatMap (indented s.indent) } := by
  induction xs generalizing s with
  | nil => simp [fresh]
  | cons x xs ih =>
    rw [List.foldl_cons, ih, s.indent_taking, s.before_taking, s.after_taking]
    by_cases held : present s.body x = true
    · simp [Section.taking, fresh, held]
    · simp [Section.taking, fresh, held]

theorem present_foldl_taking {xs : List Text} (visible : ∀ x ∈ xs, visibleLines x ≠ []) (s : Section) :
    ∀ x ∈ xs, present (xs.foldl Section.taking s).body x = true := by
  have kept (ys : List Text) (s : Section) (x : Text) (held : present s.body x = true) :
      present (ys.foldl Section.taking s).body x = true :=
    List.foldlRecOn (motive := fun s : Section => present s.body x = true) ys _ held fun s held y _ =>
      s.present_taking held y
  induction xs generalizing s with
  | nil => simp
  | cons y ys ih =>
    intro x hx
    rcases List.mem_cons.1 hx with rfl | hx
    · exact kept ys _ x (s.present_taking_self (visible x List.mem_cons_self))
    · exact ih (fun z hz => visible z (List.mem_cons_of_mem y hz)) (s.taking y) x hx

/-- After each snippet the section is found as what it has become, so the next one is appended to that. -/
theorem foldlM_insertIntoSection? (hname : '\n' ∉ name) {xs : List Text} (unended : ∀ x ∈ xs, ¬ endMarker name <:+: x)
    (found : section? content name = some s) :
    xs.foldlM (fun t x => insertIntoSection? t name x) content = some (xs.foldl Section.taking s).text ∧
      (section? (xs.foldl Section.taking s).text name) = some (xs.foldl Section.taking s) := by
  induction xs generalizing content s with
  | nil =>
    have whole : s.text = content := append_of_section? found
    exact ⟨congrArg some whole.symm, whole.symm ▸ found⟩
  | cons x xs ih =>
    obtain ⟨head, tail⟩ := List.forall_mem_cons.1 unended
    rw [List.foldlM_cons, insertIntoSection?_eq found]
    exact ih tail (section?_taking hname found head)

/-- Snippets inserted into a section one after the other leave all that is outside of it as it is. The section has the lines
of those that it did not hold at their turn after its own, in that order, and none of the snippets is inserted again. -/
theorem section_grows (hname : '\n' ∉ name) (found : section? content name = some s) {xs : List Text}
    (visible : ∀ x ∈ xs, visibleLines x ≠ []) (unended : ∀ x ∈ xs, ¬ endMarker name <:+: x) :
    let grown : Section := { s with body := s.body ++ (fresh s.indent s.body xs).flatMap (indented s.indent) }
    s.text = content ∧
    xs.foldlM (fun t x => insertIntoSection? t name x) content = some grown.text ∧
    (section? grown.text name = some grown) ∧
    ∀ x ∈ xs, insertIntoSection? grown.text name x = some grown.text := by
  intro grown
  have all : xs.foldl Section.taking s = grown := foldl_taking s xs
  obtain ⟨run, again⟩ := foldlM_insertIntoSection? hname unended found
  have held := present_foldl_taking visible s
  rw [all] at run again held
  refine ⟨append_of_section? found, run, again, fun x hx => ?_⟩
  rw [insertIntoSection?_eq again, Section.taking, if_pos (held x hx)]

section Samples

def pathsText : Text := "paths = [\n  // crudgen:begin paths\n  ...userPaths,\n  // crudgen:end paths\n];\n".toList

/-- Two snippets of which the first has several lines, one that the section holds, and the first once more. -/
def pathsSnippets : List Text :=
  ["\n...tagPaths,\n  ...tagRoots,\n\n".toList, "...itemPaths,".toList, "...userPaths,\n".toList,
    "\n...tagPaths,\n  ...tagRoots,\n\n".toList]

/-- What they make of it: the first two are appended, and the others are there already. -/
def pathsAfter : Text := ("paths = [\n  // crudgen:begin paths\n  ...userPaths,\n\n  ...tagPaths,\n    ...tagRoots,\n" ++
  "  ...itemPaths,\n  // crudgen:end paths\n];\n").toList

theorem section_grows_paths :
    (section? pathsText "paths".toList).map (·.body) = some "  ...userPaths,\n".toList ∧
    (∀ x ∈ pathsSnippets, visibleLines x ≠ []) ∧ (∀ x ∈ pathsSnippets, ¬ endMarker "paths".toList <:+: x) ∧
    pathsSnippets.foldlM (fun t x => insertIntoSection? t "paths".toList x) pathsText = some pathsAfter ∧
    ∀ x ∈ pathsSnippets, insertIntoSection? pathsAfter "paths".toList x = some pathsAfter := by
  have found : section? pathsText "paths".toList = some ⟨"paths = [\n  // crudgen:begin paths\n".toList,
      "  ...userPaths,\n".toList, "  // crudgen:end paths\n];\n".toList⟩ := by decide +kernel
  have visible : ∀ x ∈ pathsSnippets, visibleLines x ≠ [] := by decide +kernel
  have unended : ∀ x ∈ pathsSnippets, ¬ endMarker "paths".toList <:+: x := by decide +kernel
  obtain ⟨-, run, -, idle⟩ := section_grows (by decide) found visible unended
  have after : _ = pathsAfter := Option.some.inj (run.symm.trans (by decide +kernel))
  rw [after] at run idle
  exact ⟨by rw [found]; rfl, visible, unended, run, idle⟩

end Samples

end EntityScaffold.SharedFile
