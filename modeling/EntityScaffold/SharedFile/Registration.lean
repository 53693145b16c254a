import EntityScaffold.SharedFile.Target

/- What becomes of one shared file when an entity is registered in it. -/

namespace EntityScaffold.SharedFile

/-- The outcome for one shared file: whether it was changed, by how many insertions, and what could not be done. -/
structure Registration where
  target : Text
  filePath : Text
  applied : Bool := false
  insertions : Int := 0
  warnings : List Text := []
  deriving DecidableEq, Repr

def Registration.state (r : Registration) : Text :=
  if r.applied then "patched (".toList ++ Text.ofInt r.insertions ++ " insertion(s))".toList
  else if r.warnings.isEmpty then "already registered".toList
  else "not patched".toList

/-- What a shared file's text becomes for an entity. -/
inductive Outcome where
  | registered
  | spliced (s : Spliced)
  deriving DecidableEq, Repr

/-- Registers an entity, given by the values of a context, in the text of a shared file. -/
def Target.register (t : Target) (context : Template.Context) (content : Text) : Outcome :=
  if Text.has content (Template.substitute t.existenceMarker context) then .registered
  else .spliced (applyInsertions context content t.insertions)

end EntityScaffold.SharedFile
