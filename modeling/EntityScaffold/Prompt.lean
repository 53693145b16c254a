import EntityScaffold.Text.Blank

/- Asking a person for a name: what is shown, and which answers are taken. -/

namespace EntityScaffold.Prompt

def question (label : Text) : Text := label ++ ": ".toList

def complaint (label : Text) : Text := label ++ " cannot be empty.".toList

/-- The name that an answer gives: its text without blanks at the ends, if there is any. -/
def name? (answer : Text) : Option Text :=
  let name := Text.strip answer
  if name.isEmpty then none else some name

end EntityScaffold.Prompt
