import EntityScaffold.Text.Utf8
import EntityScaffold.Yaml.Block
import EntityScaffold.Yaml.Number
import EntityScaffold.Yaml.Plain
import EntityScaffold.Yaml.Quoted

/-
The tokens of a settings text: its values and signs, and marks for the collections that indentation opens and closes. A
value that a colon follows on its line is a key; where it stands is kept until the colon is seen.
-/

namespace EntityScaffold.Yaml

/-- What a directive says. -/
inductive Directive where
  | version (major minor : Nat)
  | handle (name leading : Text)
  | unknown
  deriving DecidableEq, Repr

inductive Token where
  | directive (d : Directive)
  | documentStart
  | documentEnd
  | sequenceStart
  | mappingStart
  | blockEnd
  | flowSequenceStart
  | flowSequenceEnd
  | flowMappingStart
  | flowMappingEnd
  | blockEntry
  | flowEntry
  | key
  | value
  | alias (name : Text)
  | anchor (name : Text)
  | tag (handle : Option Text) (ending : Text)
  | scalar (t : Text) (isPlain : Bool)
  | unreadable (f : Flaw)
  deriving DecidableEq, Repr

/-- A place where a key may stand: how many tokens come before it, where it is, and whether there has to be one. -/
structure KeyPlace where
  before : Nat
  required : Bool
  line : Nat
  column : Nat
  index : Nat
  deriving DecidableEq, Repr

/-- The state between two tokens: the place in the text, a number that no stretch of the text is longer than, the tokens so far with the
last one first and their number, how many brackets are open, the indentation of the collection around and of those around it, whether a
key may start here, and for each number of open brackets the place where a key may have started. -/
structure Lexer where
  cursor : Cursor
  bound : Nat
  tokens : List Token := []
  count : Nat := 0
  flow : Nat := 0
  indent : Int := -1
  outer : List Int := []
  mayBeKey : Bool := true
  keys : List (Nat × KeyPlace) := []

namespace Lexer

def emit (s : Lexer) (t : Token) : Lexer := { s with tokens := t :: s.tokens, count := s.count + 1 }

def insertAt (s : Lexer) (before : Nat) (t : Token) : Lexer :=
  let later := s.count - before
  { s with tokens := s.tokens.take later ++ t :: s.tokens.drop later, count := s.count + 1 }

/-- The longest stretch from a key to its colon. -/
def longestKey : Nat := 1024

def isStale (s : Lexer) (k : KeyPlace) : Bool := k.line ≠ s.cursor.line || longestKey < s.cursor.index - k.index

/-- Forgets the places of keys that no colon can follow any more; one that has to have a colon is an error. -/
def dropStale (s : Lexer) : Except Fault Lexer := do
  if s.keys.any fun e => s.isStale e.2 && e.2.required then throw .malformed
  return { s with keys := s.keys.filter fun e => !s.isStale e.2 }

/-- Forgets the place of a key within the brackets that are open now. -/
def dropKey (s : Lexer) : Except Fault Lexer := do
  if s.keys.any fun e => e.1 = s.flow && e.2.required then throw .malformed
  return { s with keys := s.keys.filter fun e => e.1 ≠ s.flow }

def noteKey (s : Lexer) : Except Fault Lexer := do
  if s.mayBeKey then
    let s ← s.dropKey
    let place : KeyPlace := {
      before := s.count
      required := s.flow = 0 && s.indent = s.cursor.column
      line := s.cursor.line
      column := s.cursor.column
      index := s.cursor.index }
    return { s with keys := (s.flow, place) :: s.keys }
  else return s

/-- Closes the collections that are indented further than a column. -/
def closeTo (column : Int) (s : Lexer) : Lexer :=
  if s.flow = 0 then go s.outer s else s
where
  go : List Int → Lexer → Lexer
    | [], s => s
    | o :: os, s =>
      if column < s.indent then go os ({ s with indent := o, outer := os }.emit .blockEnd) else s

/-- Opens a collection at a column, if it is indented further than the one around; says whether it did. -/
def «open» (column : Nat) (s : Lexer) : Bool × Lexer :=
  if s.indent < column then (true, { s with indent := column, outer := s.indent :: s.outer }) else (false, s)

/-- Opens a collection here, where a new entry may start. -/
def openHere (s : Lexer) (start : Token) : Except Fault Lexer :=
  if s.flow = 0 then
    if s.mayBeKey then
      match s.open s.cursor.column with
      | (true, s) => .ok (s.emit start)
      | (false, s) => .ok s
    else .error .malformed
  else .ok s

/-- Past blanks, comments and line ends; after a line end a key may start. -/
def pastGaps : Nat → Lexer → Lexer
  | 0, s => s
  | n + 1, s =>
    let c := s.cursor.pastSpaces.pastComment
    match c.lineEnd? with
    | some (_, c) =>
      pastGaps n { s with cursor := c, mayBeKey := s.mayBeKey || s.flow = 0 }
    | none => { s with cursor := c }

def take (s : Lexer) (t : Token) : Lexer := { s with cursor := s.cursor.step }.emit t

def documentSign (s : Lexer) (t : Token) : Except Fault Lexer := do
  let s ← (s.closeTo (-1)).dropKey
  return { s with mayBeKey := false, cursor := s.cursor.skip 3 }.emit t

def flowStart (s : Lexer) (t : Token) : Except Fault Lexer := do
  let s ← s.noteKey
  return { s with flow := s.flow + 1, mayBeKey := true }.take t

def flowEnd (s : Lexer) (t : Token) : Except Fault Lexer := do
  let s ← s.dropKey
  match s.flow with
  | 0 => throw .malformed
  | flow + 1 => return { s with flow := flow, mayBeKey := false }.take t

def flowEntry (s : Lexer) : Except Fault Lexer := do
  let s ← { s with mayBeKey := true }.dropKey
  return s.take .flowEntry

def blockEntry (s : Lexer) : Except Fault Lexer := do
  let s ← s.openHere .sequenceStart
  let s ← { s with mayBeKey := true }.dropKey
  return s.take .blockEntry

def keySign (s : Lexer) : Except Fault Lexer := do
  let s ← s.openHere .mappingStart
  let s ← { s with mayBeKey := s.flow = 0 }.dropKey
  return s.take .key

/-- A colon: the place of its key, if one was noted, becomes a key, and opens a mapping there if need be. -/
def valueSign (s : Lexer) : Except Fault Lexer := do
  match s.keys.lookup s.flow with
  | some place =>
    let s := { s with keys := s.keys.filter fun e => e.1 ≠ s.flow }
    let s := s.insertAt place.before .key
    let s :=
      if s.flow = 0 then
        match s.open place.column with
        | (true, s) => s.insertAt place.before .mappingStart
        | (false, s) => s
      else s
    return { s with mayBeKey := false }.take .value
  | none =>
    let s ← s.openHere .mappingStart
    let s ← { s with mayBeKey := s.flow = 0 }.dropKey
    return s.take .value

def keyLike (s : Lexer) (read : Cursor → Except Fault (Token × Cursor)) : Except Fault Lexer := do
  let s ← s.noteKey
  let (t, c) ← read s.cursor
  return { s with mayBeKey := false, cursor := c }.emit t

def isNameChar (c : Char) : Bool := c.isAlphanum || c = '-' || c = '_'

def name (make : Text → Token) (c : Cursor) : Except Fault (Token × Cursor) := do
  let (n, c) := c.step.span isNameChar
  if n.isEmpty then throw .malformed
  if c.seesOrEnds fun x => isGap x || "?:,]\x7d%@`".toList.contains x then return (make n, c)
  else throw .malformed

def isAddressChar (c : Char) : Bool := c.isAlphanum || "-;/?:@&=+$,_.!~*'()[]".toList.contains c

def octet? : Text → Option UInt8
  | '%' :: a :: b :: _ => do
    let high ← hexValue? a
    let low ← hexValue? b
    return UInt8.ofNat (16 * high + low)
  | _ => none

/-- Octets after percent signs, which have to be a text. -/
def escapedOctets : Nat → Cursor → List UInt8 × Cursor
  | 0, c => ([], c)
  | n + 1, c =>
    match octet? c.rest with
    | some b =>
      let (bs, c) := escapedOctets n (c.skip 3)
      (b :: bs, c)
    | none => ([], c)

/-- The longest address from here on. -/
def address : Nat → Cursor → Except Fault (Text × Cursor)
  | 0, _ => .error .malformed
  | n + 1, c =>
    match c.peek with
    | some '%' =>
      let (bs, after) := escapedOctets c.rest.length c
      match bs, Utf8.decode bs with
      | _ :: _, .ok t => do
        if after.sees (· = '%') then throw .malformed
        let (r, c) ← address n after
        return (t ++ r, c)
      | _, _ => .error .malformed
    | some x =>
      if isAddressChar x then do
        let (r, c) ← address n c.step
        return (x :: r, c)
      else .ok ([], c)
    | none => .ok ([], c)

def address1 (c : Cursor) : Except Fault (Text × Cursor) := do
  let (t, c) ← address (c.rest.length + 1) c
  if t.isEmpty then throw .malformed else return (t, c)

/-- A handle: an exclamation mark, or a name between two. -/
def handle (c : Cursor) : Except Fault (Text × Cursor) := do
  if !c.sees (· = '!') then throw .malformed
  let after := c.step
  if after.sees (· = ' ') then return (['!'], after)
  let (n, c) := after.span isNameChar
  if c.sees (· = '!') then return ('!' :: n ++ ['!'], c.step) else throw .malformed

/-- Whether an exclamation mark stands in the rest of the word. -/
def hasSecondMark (t : Text) : Bool := (t.takeWhile fun x => x ≠ ' ' && !isBreak x).contains '!'

def tag (c : Cursor) : Except Fault (Token × Cursor) := do
  let after := c.step
  let (t, c) ←
    if after.sees (· = '<') then do
      let (ending, c) ← address1 after.step
      if c.sees (· = '>') then pure (Token.tag none ending, c.step) else throw .malformed
    else if after.seesOrEnds isGap then pure (Token.tag none ['!'], after)
    else do
      let (h, c) ← if hasSecondMark after.rest then handle c else pure (['!'], after)
      let (ending, c) ← address1 c
      pure (Token.tag (some h) ending, c)
  if c.seesOrEnds fun x => x = ' ' || isBreak x then return (t, c) else throw .malformed

def versionNumber (c : Cursor) : Except Fault (Nat × Cursor) :=
  let (digits, c) := c.span Char.isDigit
  if digits.isEmpty then .error .malformed
  else if mostDigits < digits.length then .error (tooLong digits.length)
  else .ok (naturalOf digits, c)

def endsWord (c : Cursor) : Except Fault Unit :=
  if c.seesOrEnds fun x => x = ' ' || isBreak x then .ok () else .error .malformed

def versionDirective (c : Cursor) : Except Fault (Directive × Cursor) := do
  let (major, c) ← versionNumber c.pastSpaces
  if !c.sees (· = '.') then throw .malformed
  let (minor, c) ← versionNumber c.step
  endsWord c
  return (.version major minor, c)

def handleDirective (c : Cursor) : Except Fault (Directive × Cursor) := do
  let (h, c) ← handle c.pastSpaces
  if !c.sees (· = ' ') then throw .malformed
  let (leading, c) ← address1 c.pastSpaces
  endsWord c
  return (.handle h leading, c)

def directive (s : Lexer) : Except Fault Lexer := do
  let s ← (s.closeTo (-1)).dropKey
  let (n, c) := s.cursor.step.span isNameChar
  if n.isEmpty then throw .malformed
  endsWord c
  let (d, c) ←
    if n = "YAML".toList then versionDirective c
    else if n = "TAG".toList then handleDirective c
    else pure (.unknown, c.past (!isBreak ·))
  let c ← c.restOfLine
  return { s with mayBeKey := false, cursor := c }.emit (.directive d)

def block (fold : Bool) (s : Lexer) : Except Fault Lexer := do
  let s ← { s with mayBeKey := true }.dropKey
  let (t, c) ← blockValue s.bound fold s.indent s.cursor
  return { s with cursor := c }.emit (.scalar t false)

def quoted (double : Bool) (s : Lexer) : Except Fault Lexer :=
  s.keyLike fun c => do
    let (t, c) ← quotedValue s.bound double c
    return (.scalar t false, c)

def plain (s : Lexer) : Except Fault Lexer := do
  let s ← s.noteKey
  let (t, broken, c) := plainValue s.bound (s.flow ≠ 0) s.indent s.cursor
  return { s with mayBeKey := broken, cursor := c }.emit (.scalar t true)

def signs : Text := "-?:,[]\x7b\x7d#&*!|>'\"%@`".toList

def startsPlain (s : Lexer) (x : Char) : Bool :=
  (!isGap x && !signs.contains x) ||
    (!s.cursor.seesOrEndsAt 1 isGap && (x = '-' || (s.flow = 0 && (x = '?' || x = ':'))))

/-- The next token, which starts with the given character. -/
def next (s : Lexer) (x : Char) : Except Fault Lexer :=
  let c := s.cursor
  let gapFollows := c.seesOrEndsAt 1 isGap
  if c.column = 0 && x = '%' then s.directive
  else if c.column = 0 && c.seesStart then s.documentSign .documentStart
  else if c.column = 0 && c.seesEnd then s.documentSign .documentEnd
  else if x = '[' then s.flowStart .flowSequenceStart
  else if x = '\x7b' then s.flowStart .flowMappingStart
  else if x = ']' then s.flowEnd .flowSequenceEnd
  else if x = '\x7d' then s.flowEnd .flowMappingEnd
  else if x = ',' then s.flowEntry
  else if x = '-' && gapFollows then s.blockEntry
  else if x = '?' && (s.flow ≠ 0 || gapFollows) then s.keySign
  else if x = ':' && (s.flow ≠ 0 || gapFollows) then s.valueSign
  else if x = '*' then s.keyLike (name .alias)
  else if x = '&' then s.keyLike (name .anchor)
  else if x = '!' then s.keyLike tag
  else if x = '|' && s.flow = 0 then s.block false
  else if x = '>' && s.flow = 0 then s.block true
  else if x = '\'' then s.quoted false
  else if x = '"' then s.quoted true
  else if s.startsPlain x then s.plain
  else .error .malformed

/-- The tokens that no token after them changes any more: those before the first place where a key may have started. -/
def settled (s : Lexer) : List Token :=
  let places := (s.keys.filter fun e => !s.isStale e.2).map (·.2.before)
  s.tokens.reverse.take (places.foldl min s.count)

/-- All tokens from here on; each step takes one at least of the characters that are left. Where the text is well formed but cannot be
read on, the tokens end with a note of it after those that are settled. -/
def run : Nat → Lexer → Except Fault (List Token)
  | 0, _ => .error .malformed
  | n + 1, before => do
    let s ← (before.pastGaps before.bound).dropStale
    let s := s.closeTo s.cursor.column
    match s.cursor.peek with
    | none =>
      let s ← (s.closeTo (-1)).dropKey
      return s.tokens.reverse
    | some x =>
      match s.next x with
      | .ok s => run n s
      | .error .malformed => throw .malformed
      | .error (.flawed f) => return before.settled ++ [.unreadable f]

end Lexer

def isAllowed (c : Char) : Bool :=
  let n := c.toNat
  n = 9 || n = 10 || n = 13 || (32 ≤ n && n ≤ 126) || n = 0x85 || (0xA0 ≤ n && n ≤ 0xFFFD) || 0x10000 ≤ n

def tokens (t : Text) : Except Fault (List Token) := do
  if !t.all isAllowed then throw .malformed
  let start : Cursor := { rest := t }
  let start := if start.sees (· = byteOrderMark) then start.step else start
  let bound := t.length + 1
  Lexer.run bound { cursor := start, bound := bound }

end EntityScaffold.Yaml
