import EntityScaffold.Yaml.Cursor

/-
Plain values: words without quotes. They end before a colon at the end of a word, before a comment, at a line with less
indentation, and within brackets at the signs that part entries.
-/

namespace EntityScaffold.Yaml

def isFlowSign (c : Char) : Bool := c = ',' || c = '[' || c = ']' || c = '\x7b' || c = '\x7d'

/-- The stretch of a plain value within a line, up to a gap or to what ends it. -/
def plainWord (inFlow : Bool) : Text → Text
  | [] => []
  | x :: r =>
    if isGap x then []
    else if x = ':' && r.head?.all (fun y => isGap y || (inFlow && isFlowSign y)) then []
    else if inFlow && (x = '?' || isFlowSign x) then []
    else x :: plainWord inFlow r

/-- Line ends between the lines of a plain value; nothing if a document marker stands among them. -/
def plainBreaks : Nat → Cursor → Option Text × Cursor
  | 0, c => (some [], c)
  | n + 1, c =>
    if c.seesStart || c.seesEnd then (none, c)
    else
      let c := c.pastSpaces
      match c.lineEnd? with
      | none => (some [], c)
      | some (x, c) =>
        match plainBreaks n c with
        | (some xs, c) => (some (x :: xs), c)
        | (none, c) => (none, c)

/-- The gap after a word of a plain value: what it counts as in the value, whether it holds a line end, and the place after it. The number
bounds how many lines are looked at. -/
def plainGap (bound : Nat) (c : Cursor) : Text × Bool × Cursor :=
  let (blanks, c) := c.span (· = ' ')
  match c.lineEnd? with
  | none => (blanks, false, c)
  | some (x, c) =>
    match plainBreaks bound c with
    | (none, c) => ([], true, c)
    | (some breaks, c) =>
      (if x ≠ '\n' then x :: breaks else if breaks.isEmpty then [' '] else breaks, true, c)

/-- A plain value from a word on, after the given gap: its text, whether a line end follows it, and the place after it. -/
def plainFrom (inFlow : Bool) (indent : Int) : Nat → Bool → Text → Cursor → Text × Bool × Cursor
  | 0, broken, _, c => ([], broken, c)
  | n + 1, broken, gap, c =>
    if c.sees (· = '#') then ([], broken, c)
    else
      let word := plainWord inFlow c.rest
      if word.isEmpty then ([], broken, c)
      else
        let (next, broken, c) := plainGap (n + 1) (c.skip word.length)
        if next.isEmpty || c.sees (· = '#') || (!inFlow && (c.column : Int) < indent) then
          (gap ++ word, broken, c)
        else
          let (t, broken, c) := plainFrom inFlow indent n broken next c
          (gap ++ word ++ t, broken, c)

/-- A plain value, whether a line end follows it, and the place after it. The number bounds how long it is. -/
def plainValue (bound : Nat) (inFlow : Bool) (around : Int) (c : Cursor) : Text × Bool × Cursor :=
  plainFrom inFlow (around + 1) bound false [] c

end EntityScaffold.Yaml
