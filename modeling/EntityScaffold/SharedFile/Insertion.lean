import EntityScaffold.SharedFile.Anchor
import EntityScaffold.Template.Substitution
import EntityScaffold.Text.Quoted

/- Insertions into a shared file: a snippet goes into its section if the file has it, else before its anchor. -/

namespace EntityScaffold.SharedFile

open Template (Context substitute)

/-- A snippet and where it goes; anchor and snippet are templates. -/
structure Insertion where
  anchor : Text
  snippet : Text
  sectionName : Option Text := none
  deriving DecidableEq, Repr

inductive Splice where
  | alreadyThere
  | inserted (content : Text)
  | anchorMissing (anchor : Text)
  deriving DecidableEq, Repr

/-- The section that an insertion prefers, if the text has it. -/
def Insertion.section? (i : Insertion) (content : Text) : Option Section :=
  match i.sectionName with
  | none => none
  | some name => if name.isEmpty then none else SharedFile.section? content name

def splice (context : Context) (content : Text) (i : Insertion) : Splice :=
  let snippet := substitute i.snippet context
  let anchor := substitute i.anchor context
  match i.section? content with
  | some s => if present s.body snippet then .alreadyThere else .inserted (s.append snippet)
  | none =>
    if present content snippet then .alreadyThere
    else match insertBeforeAnchor? content anchor snippet with
      | some new => .inserted new
      | none => .anchorMissing anchor

/-- A text after some insertions: the text, how many snippets were inserted, and a warning for each missing anchor. -/
structure Spliced where
  content : Text
  applied : Nat := 0
  warnings : List Text := []
  deriving DecidableEq, Repr

def anchorWarning (anchor : Text) : Text := "Anchor not found: ".toList ++ Text.quoted anchor

def Spliced.next (context : Context) (s : Spliced) (i : Insertion) : Spliced :=
  match splice context s.content i with
  | .alreadyThere => s
  | .inserted content => { s with content := content, applied := s.applied + 1 }
  | .anchorMissing anchor => { s with warnings := s.warnings ++ [anchorWarning anchor] }

/-- Makes insertions one after the other, each in the text that the one before left. -/
def applyInsertions (context : Context) (content : Text) (is : List Insertion) : Spliced :=
  is.foldl (Spliced.next context) { content := content }

end EntityScaffold.SharedFile
