import EntityScaffold.SharedFile.Anchor
import EntityScaffold.Proofs.SharedFile.Snippet

/-
What an insertion before an anchor writes, where the anchor is the first text on its line. The lines are those that a section
would get above an end marker in the anchor's place, but for the first of them: it stands behind the anchor's indentation even
when it has no text, and without the spaces and tabs that it began with.
-/

namespace EntityScaffold.SharedFile

open Text (lines ended strip cut?)

variable {indent t anchor rest : Text}

/-- The lines that come to stand before an anchor: the first without spaces and tabs of its own, behind the indentation. -/
def anchoredLines (indent snippet : Text) : List Text :=
  (indentedLines indent snippet).modifyHead fun line => indent ++ line.dropWhile isIndent

def firstLine (snippet : Text) : Text := (lines (Text.trimEnd (· = '\n') snippet)).headD []

/-- A line comes to stand first before an anchor as it would in a section. -/
def StandsFirst (indent line : Text) : Prop :=
  if (strip line).isEmpty then indent = [] else line.head?.any isIndent = false

instance (indent line : Text) : Decidable (StandsFirst indent line) :=
  inferInstanceAs (Decidable (if (strip line).isEmpty then indent = [] else line.head?.any isIndent = false))

theorem exists_indentedLines_eq (indent snippet : Text) : ∃ ls, indentedLines indent snippet =
    (if (strip (firstLine snippet)).isEmpty then [] else indent ++ firstLine snippet) :: ls := by
  obtain ⟨l, ls, hls⟩ := List.exists_cons_of_ne_nil (Text.splitAt_ne_nil '\n' (Text.trimEnd (· = '\n') snippet))
  exact ⟨_, by rw [indentedLines, firstLine, lines, hls, List.map_cons, List.headD_cons]⟩

theorem dropWhile_isIndent_eq_self_iff (l : Text) : l.dropWhile isIndent = l ↔ l.head?.any isIndent = false := by
  cases l with
  | nil => simp
  | cons c r => simp [List.dropWhile_eq_self_iff]

theorem takeWhile_isIndent_eq (indentation : ∀ c ∈ indent, isIndent c = true) {name : Text}
    (starts : indent ++ endMarker name <+: t) : t.takeWhile isIndent = indent := by
  obtain ⟨u, rfl⟩ := starts
  have stop : (endMarker name ++ u).takeWhile isIndent = [] := rfl
  rw [List.append_assoc, List.takeWhile_append_of_pos indentation, stop, List.append_nil]

theorem dropWhile_isIndent_ended (l : Text) (ls : List Text) :
    (ended (l :: ls)).dropWhile isIndent = ended (l.dropWhile isIndent :: ls) := by
  have stop : ('\n' :: ended ls).dropWhile isIndent = '\n' :: ended ls := rfl
  rw [Text.ended_cons, Text.ended_cons, List.dropWhile_append, stop]
  split
  case isTrue none => rw [List.isEmpty_iff.1 none, List.nil_append]
  case isFalse => rfl

theorem indent_append_dropWhile_indented (indent snippet : Text) :
    indent ++ (indented indent snippet).dropWhile isIndent = ended (anchoredLines indent snippet) := by
  obtain ⟨ls, written⟩ := exists_indentedLines_eq indent snippet
  rw [indented_eq_ended, anchoredLines, written, dropWhile_isIndent_ended, List.modifyHead_cons]
  simp only [Text.ended_cons, List.append_assoc]

theorem ended_anchoredLines_eq_iff (indentation : ∀ c ∈ indent, isIndent c = true) (snippet : Text) :
    ended (anchoredLines indent snippet) = ended (indentedLines indent snippet) ↔
      StandsFirst indent (firstLine snippet) := by
  obtain ⟨ls, written⟩ := exists_indentedLines_eq indent snippet
  rw [anchoredLines, written, List.modifyHead_cons, Text.ended_cons, Text.ended_cons, List.append_cancel_right_eq,
    StandsFirst]
  split
  · simp
  · rw [List.dropWhile_append_of_pos indentation, List.append_cancel_left_eq, dropWhile_isIndent_eq_self_iff]

theorem insertBeforeAnchor?_of_indent {us : List Text} (found : cut? anchor t = some (ended us ++ indent, rest))
    (indentation : ∀ c ∈ indent, isIndent c = true) (snippet : Text) :
    insertBeforeAnchor? t anchor snippet = some (ended us ++ (ended (anchoredLines indent snippet) ++ (indent ++ rest))) := by
  have oneLine : '\n' ∉ indent := fun hm => absurd (indentation _ hm) (by decide)
  have blank : strip indent = [] := Text.strip_eq_nil_iff.2 fun c hc => isBlank_of_isIndent (indentation c hc)
  rw [← indent_append_dropWhile_indented]
  simp [insertBeforeAnchor?, found, lastLineSplit_ended_append us oneLine, blank]

theorem insertIntoSection?_of_indent (indentation : ∀ c ∈ indent, isIndent c = true) {name snippet : Text} {s : Section}
    (found : section? t name = some s) (starts : indent ++ endMarker name <+: s.after)
    (absent : present s.body snippet = false) :
    insertIntoSection? t name snippet =
      some (s.before ++ s.body ++ (ended (indentedLines indent snippet) ++ s.after)) := by
  simp [insertIntoSection?, found, absent, Section.append, takeWhile_isIndent_eq indentation starts, indented_eq_ended]

/-- An anchor that is the first text on its line, behind an indentation, with whole lines before that. A snippet comes to stand
before the line as its indented lines, but for the first of them. In a section whose end marker has the same indentation it
stands as its indented lines; and that is what stands before the anchor just when the snippet's first line has text and does
not begin with a space or a tab, or has no text where there is no indentation. -/
theorem insertBeforeAnchor?_line {us : List Text} (found : cut? anchor t = some (ended us ++ indent, rest))
    (indentation : ∀ c ∈ indent, isIndent c = true) (snippet : Text) :
    t = ended us ++ (indent ++ rest) ∧
    insertBeforeAnchor? t anchor snippet =
      some (ended us ++ (ended (anchoredLines indent snippet) ++ (indent ++ rest))) ∧
    (∀ u name s, section? u name = some s → indent ++ endMarker name <+: s.after → present s.body snippet = false →
      insertIntoSection? u name snippet =
        some (s.before ++ s.body ++ (ended (indentedLines indent snippet) ++ s.after))) ∧
    (insertBeforeAnchor? t anchor snippet =
        some (ended us ++ (ended (indentedLines indent snippet) ++ (indent ++ rest))) ↔
      StandsFirst indent (firstLine snippet)) := by
  have inserted := insertBeforeAnchor?_of_indent found indentation snippet
  refine ⟨?_, inserted, fun u name s => insertIntoSection?_of_indent indentation, ?_⟩
  · rw [← List.append_assoc, Text.append_of_cut? found]
  · rw [inserted, Option.some_inj, List.append_cancel_left_eq, List.append_cancel_right_eq]
    exact ended_anchoredLines_eq_iff indentation snippet

section Samples

def hereText : Text := "[\n    // here\n]\n".toList

/-- A section whose end marker is indented as the anchor is. -/
def hereSection : Text := "[\n    // crudgen:begin here\n    // crudgen:end here\n]\n".toList

theorem insertBeforeAnchor?_line_here :
    cut? "// here".toList hereText = some (ended ["[".toList] ++ "    ".toList, "// here\n]\n".toList) ∧
    insertBeforeAnchor? hereText "// here".toList "a\n  b\n".toList = some "[\n    a\n      b\n    // here\n]\n".toList ∧
    insertIntoSection? hereSection "here".toList "a\n  b\n".toList =
      some "[\n    // crudgen:begin here\n    a\n      b\n    // crudgen:end here\n]\n".toList := by
  have found : cut? "// here".toList hereText = some (ended ["[".toList] ++ "    ".toList, "// here\n]\n".toList) := by
    decide +kernel
  obtain ⟨-, -, inSection, alike⟩ := insertBeforeAnchor?_line found (by decide) "a\n  b\n".toList
  refine ⟨found, ?_, ?_⟩
  · exact (alike.2 (by decide +kernel)).trans (by decide +kernel)
  · have there : section? hereSection "here".toList = some ⟨"[\n    // crudgen:begin here\n".toList, [],
        "    // crudgen:end here\n]\n".toList⟩ := by decide +kernel
    exact (inSection _ _ _ there (by decide) (by decide)).trans (by decide +kernel)

/-- A first line with spaces of its own and a first line without text come to stand otherwise before the anchor than they do
in the section. -/
theorem first_line_misplaced :
    insertBeforeAnchor? hereText "// here".toList "  a\nb\n".toList = some "[\n    a\n    b\n    // here\n]\n".toList ∧
    insertIntoSection? hereSection "here".toList "  a\nb\n".toList =
      some "[\n    // crudgen:begin here\n      a\n    b\n    // crudgen:end here\n]\n".toList ∧
    insertBeforeAnchor? hereText "// here".toList "\na\n".toList = some "[\n    \n    a\n    // here\n]\n".toList ∧
    insertIntoSection? hereSection "here".toList "\na\n".toList =
      some "[\n    // crudgen:begin here\n\n    a\n    // crudgen:end here\n]\n".toList := by
  decide +kernel

end Samples

end EntityScaffold.SharedFile
