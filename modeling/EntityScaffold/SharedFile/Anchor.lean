import EntityScaffold.SharedFile.Section

/-
Anchors: texts before which a snippet is spliced in. An anchor that is the first text on its line keeps its
indentation, and the snippet takes the same.
-/

namespace EntityScaffold.SharedFile

/-- The text with a snippet before the first place of an anchor; nothing if the anchor does not occur. -/
def insertBeforeAnchor? (content anchor snippet : Text) : Option Text := do
  let (before, rest) ← Text.cut? anchor content
  let start := (lastLineSplit before).2
  let indent := if (Text.strip start).isEmpty then start else []
  return before ++ (indented indent snippet).dropWhile isIndent ++ indent ++ rest

end EntityScaffold.SharedFile
