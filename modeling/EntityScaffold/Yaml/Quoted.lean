import EntityScaffold.Yaml.Cursor

/-
Quoted values. Within quotes a line end with the blanks around it folds into one space, or into the line ends that follow
it; between single quotes a quote is written twice; between double quotes a backslash starts an escape.
-/

namespace EntityScaffold.Yaml

/-- A character that stands for another after a backslash. -/
def escapes : List (Char × Nat) := [
  ('0', 0), ('a', 7), ('b', 8), ('t', 9), ('\t', 9), ('n', 10), ('v', 11), ('f', 12), ('r', 13), ('e', 27),
  (' ', 32), ('"', 34), ('\\', 92), ('/', 47), ('N', 0x85), ('_', 0xA0), ('L', 0x2028), ('P', 0x2029)]

def escapeWidth? (c : Char) : Option Nat :=
  if c = 'x' then some 2 else if c = 'u' then some 4 else if c = 'U' then some 8 else none

def hexValue? (c : Char) : Option Nat :=
  if c.isDigit then some (c.toNat - 48)
  else if 'a' ≤ c && c ≤ 'f' then some (c.toNat - 87)
  else if 'A' ≤ c && c ≤ 'F' then some (c.toNat - 55)
  else none

/-- The number that a text of hexadecimal digits spells. -/
def hexNumber? (t : Text) : Option Nat := do
  let digits ← t.mapM hexValue?
  return digits.foldl (fun n d => 16 * n + d) 0

/-- Line ends from here on, with the blanks between them; a document marker must not stand among them. The number bounds how many
lines are looked at. -/
def foldedBreaks : Nat → Cursor → Except Fault (Text × Cursor)
  | 0, _ => .error .malformed
  | n + 1, c =>
    if c.seesStart || c.seesEnd then .error .malformed
    else
      let c := c.past fun x => x = ' ' || x = '\t'
      match c.lineEnd? with
      | none => .ok ([], c)
      | some (x, c) => do
        let (xs, c) ← foldedBreaks n c
        return (x :: xs, c)

/-- What a line end and the line ends after it fold into. -/
def folded (lineEnd : Char) (breaks : Text) : Text :=
  if lineEnd ≠ '\n' then lineEnd :: breaks
  else if breaks.isEmpty then [' '] else breaks

/-- Blanks within quotes: those at a line end fold with it, all others stay. The number bounds how many lines are looked at. -/
def quotedBlanks (bound : Nat) (c : Cursor) : Except Fault (Text × Cursor) := do
  let (blanks, c) := c.span fun x => x = ' ' || x = '\t'
  match c.lineEnd? with
  | some (x, c) =>
    let (breaks, c) ← foldedBreaks bound c
    return (folded x breaks, c)
  | none => if c.rest.isEmpty then throw .malformed else return (blanks, c)

/-- What a backslash and the characters after it stand for; the place is after the backslash. The number of one half of a
surrogate pair is that of no character, and is refused. The number given bounds how many lines are looked at. -/
def escaped (bound : Nat) (c : Cursor) : Except Fault (Text × Cursor) :=
  match c.peek with
  | none => .error .malformed
  | some x =>
    match escapes.lookup x, escapeWidth? x, c.lineEnd? with
    | some n, _, _ => .ok ([Char.ofNat n], c.step)
    | none, some width, _ =>
      let digits := c.step.rest.take width
      match if digits.length = width then hexNumber? digits else none with
      | none => .error .malformed
      | some n =>
        if n.isValidChar then .ok ([Char.ofNat n], (c.skip (width + 1)))
        else if n < 0x110000 then .error .malformed
        else if 0x80000000 ≤ n then .error (.flawed .characterTooWide)
        else .error (Fault.outOfRange "chr() arg not in range(0x110000)".toList)
    | none, none, some (_, c) => foldedBreaks bound c
    | none, none, none => .error .malformed

/-- A quoted value from after its first quote on, and the place after its last. The number bounds how many steps are taken. -/
def quotedFrom (double : Bool) : Nat → Cursor → Except Fault (Text × Cursor)
  | 0, _ => .error .malformed
  | n + 1, c =>
    match c.peek with
    | none => .error .malformed
    | some x =>
      if isGap x then do
        let (t, c) ← quotedBlanks (n + 1) c
        let (r, c) ← quotedFrom double n c
        return (t ++ r, c)
      else if double && x = '\\' then do
        let (t, c) ← escaped (n + 1) c.step
        let (r, c) ← quotedFrom double n c
        return (t ++ r, c)
      else if !double && x = '\'' && c.peekAt 1 = some '\'' then do
        let (r, c) ← quotedFrom double n (c.skip 2)
        return ('\'' :: r, c)
      else if x = (if double then '"' else '\'') then .ok ([], c.step)
      else do
        let (r, c) ← quotedFrom double n c.step
        return (x :: r, c)

def quotedValue (bound : Nat) (double : Bool) (c : Cursor) : Except Fault (Text × Cursor) :=
  quotedFrom double bound c.step

end EntityScaffold.Yaml
