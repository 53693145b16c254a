import EntityScaffold.Yaml.Fault

/- A place in a settings text: what is left of it, and where the place stands. Line ends are already line feeds. -/

namespace EntityScaffold.Yaml

def isBreak (c : Char) : Bool := c = '\n' || c = '\x85' || c = '\u2028' || c = '\u2029'

/-- A character that ends a word: a blank, a tab or the end of a line. -/
def isGap (c : Char) : Bool := c = ' ' || c = '\t' || isBreak c

/-- A byte order mark takes no column. -/
def byteOrderMark : Char := '\uFEFF'

structure Cursor where
  rest : Text
  line : Nat := 0
  column : Nat := 0
  index : Nat := 0
  deriving DecidableEq, Repr

namespace Cursor

def step (c : Cursor) : Cursor :=
  match c.rest with
  | [] => c
  | x :: r =>
    if isBreak x then ⟨r, c.line + 1, 0, c.index + 1⟩
    else ⟨r, c.line, if x = byteOrderMark then c.column else c.column + 1, c.index + 1⟩

def skip : Nat → Cursor → Cursor
  | 0, c => c
  | n + 1, c => skip n c.step

def peek (c : Cursor) : Option Char := c.rest.head?

def peekAt (c : Cursor) (n : Nat) : Option Char := c.rest[n]?

def sees (p : Char → Bool) (c : Cursor) : Bool := c.peek.any p

/-- Whether the next character is of a class, or there is none. -/
def seesOrEnds (p : Char → Bool) (c : Cursor) : Bool := c.peek.all p

/-- Whether the character so far on is of a class, or there is none. -/
def seesOrEndsAt (n : Nat) (p : Char → Bool) (c : Cursor) : Bool := (c.peekAt n).all p

/-- The longest stretch of characters of a class, and the place after it. -/
def span (p : Char → Bool) (c : Cursor) : Text × Cursor :=
  let t := c.rest.takeWhile p
  (t, c.skip t.length)

def past (p : Char → Bool) (c : Cursor) : Cursor := (c.span p).2

def pastSpaces (c : Cursor) : Cursor := c.past (· = ' ')

/-- The place at the end of the line, if a comment starts here. -/
def pastComment (c : Cursor) : Cursor := if c.sees (· = '#') then c.past (!isBreak ·) else c

/-- The line end that stands here, as it counts in a value, and the place after it. -/
def lineEnd? (c : Cursor) : Option (Char × Cursor) :=
  match c.peek with
  | none => none
  | some x =>
    if x = '\n' || x = '\x85' then some ('\n', c.step)
    else if isBreak x then some (x, c.step)
    else none

def seesMarker (marker : Text) (c : Cursor) : Bool := marker.isPrefixOf c.rest && c.seesOrEndsAt 3 isGap

def seesStart (c : Cursor) : Bool := c.seesMarker "---".toList

def seesEnd (c : Cursor) : Bool := c.seesMarker "...".toList

/-- Spaces, a comment, and then the end of the line: nothing else may follow here. -/
def restOfLine (c : Cursor) : Except Fault Cursor :=
  let c := c.pastSpaces.pastComment
  match c.lineEnd? with
  | some (_, c) => .ok c
  | none => if c.rest.isEmpty then .ok c else .error .malformed

end Cursor

end EntityScaffold.Yaml
