import EntityScaffold.Text.Blank

/-
The block of one entity in a schema: a line that starts with the keyword, the entity's name and an opening brace, and
everything from there to the next closing brace.
-/

namespace EntityScaffold.Schema

def isGap (c : Char) : Bool := c = ' ' || c = '\t'

/-- What follows the name, an optional gap and the opening brace. -/
def afterName? (entity t : Text) : Option Text :=
  match entity.isPrefixOf? t with
  | none => none
  | some r =>
    match r.dropWhile isGap with
    | '\x7b' :: body => some body
    | _ => none

/-- What follows a gap, the name and the opening brace. A name that starts with blanks takes its share of the gap, of which at
least one character stays. -/
def afterGap? (entity : Text) : Text → Option Text
  | [] => none
  | c :: r =>
    if isGap c then (afterGap? entity r).or (afterName? entity r) else none

/-- What follows the opening brace when a line that starts here is the entity's header. -/
def afterHeader? (entity t : Text) : Option Text :=
  match "model".toList.isPrefixOf? (t.dropWhile isGap) with
  | none => none
  | some r => afterGap? entity r

/-- The block's body when a line that starts here is the entity's header and a closing brace follows. -/
def blockHere? (entity t : Text) : Option Text :=
  match afterHeader? entity t with
  | none => none
  | some r => (Text.cut? ['\x7d'] r).map (·.1)

/-- The body of the entity's first block in the rest of a text, of which it is known whether it starts a line. -/
def blockFrom? (entity : Text) : Bool → Text → Option Text
  | _, [] => none
  | startsLine, c :: r =>
    (if startsLine then blockHere? entity (c :: r) else none).or (blockFrom? entity (c = '\n') r)

def block? (schema entity : Text) : Option Text := blockFrom? entity true schema

end EntityScaffold.Schema
