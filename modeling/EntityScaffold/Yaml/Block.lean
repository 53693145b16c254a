import EntityScaffold.Yaml.Cursor

/-
Block values: indented lines after a bar, which keeps line ends, or after a greater sign, which folds them. A sign
keeps or drops the line ends at the end of the value, and a digit sets the indentation.
-/

namespace EntityScaffold.Yaml

/-- What becomes of the line ends at the end of a block value. -/
inductive Chomping where
  | clip
  | keep
  | strip
  deriving DecidableEq, Repr

def chomping? (c : Cursor) : Option (Chomping × Cursor) :=
  if c.sees (· = '+') then some (.keep, c.step)
  else if c.sees (· = '-') then some (.strip, c.step)
  else none

/-- A digit that sets the indentation; zero is refused. -/
def indentDigit? (c : Cursor) : Except Fault (Option (Nat × Cursor)) :=
  match c.peek with
  | some x =>
    if x.isDigit then if x = '0' then .error .malformed else .ok (some (x.toNat - 48, c.step)) else .ok none
  | none => .ok none

/-- The signs after the first character of a block value, in either order. -/
def blockHeader (c : Cursor) : Except Fault (Chomping × Option Nat × Cursor) := do
  let (chomping, digit, c) ←
    match chomping? c with
    | some (chomping, c) => do
      match ← indentDigit? c with
      | some (n, c) => pure (chomping, some n, c)
      | none => pure (chomping, none, c)
    | none => do
      match ← indentDigit? c with
      | some (n, c) =>
        match chomping? c with
        | some (chomping, c) => pure (chomping, some n, c)
        | none => pure (.clip, some n, c)
      | none => pure (.clip, none, c)
  if c.seesOrEnds fun x => x = ' ' || isBreak x then return (chomping, digit, c) else throw .malformed

/-- Line ends before the first line of a value, with the widest indentation among them. -/
def leadingBreaks : Nat → Nat → Cursor → Text × Nat × Cursor
  | 0, widest, c => ([], widest, c)
  | n + 1, widest, c =>
    if c.sees (· = ' ') then leadingBreaks n (max widest c.step.column) c.step
    else match c.lineEnd? with
      | some (x, c) =>
        let (xs, widest, c) := leadingBreaks n widest c
        (x :: xs, widest, c)
      | none => ([], widest, c)

/-- The place after so many spaces, or fewer where there are no more. -/
def pastIndent : Nat → Cursor → Cursor
  | 0, c => c
  | n + 1, c => if c.sees (· = ' ') then pastIndent n c.step else c

/-- Line ends between the lines of a value, up to the next line with text. -/
def innerBreaks : Nat → Nat → Cursor → Text × Cursor
  | 0, _, c => ([], c)
  | n + 1, indent, c =>
    let c := pastIndent (indent - c.column) c
    match c.lineEnd? with
    | some (x, c) =>
      let (xs, c) := innerBreaks n indent c
      (x :: xs, c)
    | none => ([], c)

def startsLine (indent : Nat) (c : Cursor) : Bool := c.column = indent && !c.rest.isEmpty

def seesBlank (c : Cursor) : Bool := c.sees fun x => x = ' ' || x = '\t'

/-- The lines of a value from a place on, before which the given line ends stand: its text, its last line end, the line ends after
that, and the place where it stops. -/
def blockLines (fold : Bool) (indent : Nat) : Nat → Text → Cursor → Text × Text × Text × Cursor
  | 0, breaks, c => ([], [], breaks, c)
  | n + 1, breaks, c =>
    if !startsLine indent c then ([], [], breaks, c)
    else
      let isText := !seesBlank c
      let (line, c) := c.span fun x => !isBreak x
      let (lineEnd, c) := match c.lineEnd? with
        | some (x, c) => ([x], c)
        | none => ([], c)
      let (after, c) := innerBreaks (n + 1) indent c
      if !startsLine indent c then (breaks ++ line, lineEnd, after, c)
      else
        let joint :=
          if fold && lineEnd = ['\n'] && isText && !seesBlank c then if after.isEmpty then [' '] else []
          else lineEnd
        let (t, lineEnd, after, c) := blockLines fold indent n after c
        (breaks ++ line ++ joint ++ t, lineEnd, after, c)

/-- A block value and the place after it. The indentation around it is given, which is -1 outside of all collections. The number
bounds how long the value is. -/
def blockValue (bound : Nat) (fold : Bool) (around : Int) (c : Cursor) : Except Fault (Text × Cursor) := do
  let (chomping, digit, c) ← blockHeader c.step
  let c ← c.restOfLine
  let least := (max (around + 1) 1).toNat
  let (breaks, indent, c) :=
    match digit with
    | some n =>
      let indent := least + n - 1
      let (breaks, c) := innerBreaks bound indent c
      (breaks, indent, c)
    | none =>
      let (breaks, widest, c) := leadingBreaks bound 0 c
      (breaks, max least widest, c)
  let (t, lineEnd, after, c) := blockLines fold indent bound breaks c
  let ending := match chomping with
    | .clip => lineEnd
    | .keep => lineEnd ++ after
    | .strip => []
  return (t ++ ending, c)

end EntityScaffold.Yaml
