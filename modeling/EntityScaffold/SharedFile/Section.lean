import EntityScaffold.Text.Blank
import EntityScaffold.Text.Lines

/-
Tagged sections of a shared file: the lines between a marker that begins a section and a marker that ends it. A snippet
joins a section as its last lines, indented like the marker that ends it.
-/

namespace EntityScaffold.SharedFile

def beginMarker (name : Text) : Text := "// crudgen:begin ".toList ++ name

def endMarker (name : Text) : Text := "// crudgen:end ".toList ++ name

/-- A text around a section: everything up to the body, the body's lines, and everything from the line of the end marker on. -/
structure Section where
  before : Text
  body : Text
  after : Text
  deriving DecidableEq, Repr

def lastLineSplit (t : Text) : Text × Text :=
  let r := t.reverse
  ((r.dropWhile (· ≠ '\n')).reverse, (r.takeWhile (· ≠ '\n')).reverse)

theorem append_lastLineSplit (t : Text) : (lastLineSplit t).1 ++ (lastLineSplit t).2 = t := by
  simp [lastLineSplit, ← List.reverse_append]

/-- Finds a section: its begin marker, the end of a line, and its end marker after that. -/
def section? (content name : Text) : Option Section := do
  let (before, opening) ← Text.cut? (beginMarker name) content
  let (marker, rest) ← Text.cut? ['\n'] opening
  let (inner, closing) ← Text.cut? (endMarker name) (rest.drop 1)
  let (body, indent) := lastLineSplit inner
  return { before := before ++ marker ++ ['\n'], body := body, after := indent ++ closing }

def Section.bounds (s : Section) : Nat × Nat := (s.before.length, s.before.length + s.body.length)

def isIndent (c : Char) : Bool := c = ' ' || c = '\t'

/-- A snippet as lines of a file: each line with text indented, each other line empty, and no empty lines at the end. -/
def indented (indent snippet : Text) : Text :=
  (Text.splitAt '\n' (Text.trimEnd (· = '\n') snippet)).flatMap fun line =>
    if (Text.strip line).isEmpty then ['\n'] else indent ++ line ++ ['\n']

/-- Whether every line of a snippet that has text occurs in a text; a snippet without such a line never does. -/
def present (t snippet : Text) : Bool :=
  let lines := ((Text.brokenLines snippet).map Text.strip).filter fun line => !line.isEmpty
  !lines.isEmpty && lines.all (Text.has t)

/-- The text with a snippet as the section's last lines. -/
def Section.append (s : Section) (snippet : Text) : Text :=
  s.before ++ s.body ++ indented (s.after.takeWhile isIndent) snippet ++ s.after

/-- The text with a snippet in a section, unless the section holds it already; nothing if there is no such section. -/
def insertIntoSection? (content name snippet : Text) : Option Text :=
  (section? content name).map fun s => if present s.body snippet then content else s.append snippet

end EntityScaffold.SharedFile
