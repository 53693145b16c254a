import EntityScaffold.Text.Quoted

/-
JSON values and their written forms: on one line, or indented with each item on a line of its own; with or without
characters beyond ASCII.
-/

namespace EntityScaffold

/-- A JSON value; an object keeps the order of its members. -/
inductive Json where
  | null
  | bool (b : Bool)
  | number (i : Int)
  | text (t : Text)
  | list (items : List Json)
  | object (members : List (Text × Json))

namespace Json

inductive Layout where
  /-- On one line, with a space after each comma and colon. -/
  | inline
  /-- Each item on its own line, indented by so many spaces for each level. -/
  | indented (width : Nat)
  deriving DecidableEq, Repr

/-- A value's written form: its layout, and whether a character beyond ASCII is escaped. -/
structure Form where
  layout : Layout
  asciiOnly : Bool

def escapeUnit (n : Nat) : Text := '\\' :: 'u' :: Text.hex 4 n

/-- A code point as one escape, or as two above the sixteen-bit range. -/
def escapeCode (n : Nat) : Text :=
  if n < 0x10000 then escapeUnit n
  else escapeUnit (0xD800 + (n - 0x10000) / 0x400) ++ escapeUnit (0xDC00 + (n - 0x10000) % 0x400)

def escapeChar (asciiOnly : Bool) (c : Char) : Text :=
  let n := c.toNat
  if c = '"' then ['\\', '"']
  else if c = '\\' then ['\\', '\\']
  else if c = '\n' then ['\\', 'n']
  else if c = '\r' then ['\\', 'r']
  else if c = '\t' then ['\\', 't']
  else if n = 8 then ['\\', 'b']
  else if n = 12 then ['\\', 'f']
  else if n < 32 then escapeUnit n
  else if asciiOnly && 127 ≤ n then escapeCode n
  else [c]

def string (asciiOnly : Bool) (t : Text) : Text := '"' :: t.flatMap (escapeChar asciiOnly) ++ ['"']

/-- What stands before an item at a level: nothing on one line, else a new line with its indentation. -/
def Layout.lead : Layout → Nat → Text
  | .inline, _ => []
  | .indented width, level => '\n' :: List.replicate (width * level) ' '

def Layout.comma : Layout → Nat → Text
  | .inline, _ => ", ".toList
  | .indented width, level => ',' :: Layout.lead (.indented width) level

/-- Items between brackets; no items leave the brackets empty. -/
def bracketed (layout : Layout) (level : Nat) (opening closing : Char) (items : List Text) : Text :=
  if items.isEmpty then [opening, closing]
  else opening :: layout.lead (level + 1) ++ Text.joinWith (layout.comma (level + 1)) items ++
    layout.lead level ++ [closing]

mutual

def write (form : Form) (level : Nat) : Json → Text
  | null => "null".toList
  | bool b => if b then "true".toList else "false".toList
  | number i => Text.ofInt i
  | text t => string form.asciiOnly t
  | list items => bracketed form.layout level '[' ']' (writeItems form (level + 1) items)
  | object members => bracketed form.layout level '\x7b' '\x7d' (writeMembers form (level + 1) members)

def writeItems (form : Form) (level : Nat) : List Json → List Text
  | [] => []
  | v :: vs => write form level v :: writeItems form level vs

def writeMembers (form : Form) (level : Nat) : List (Text × Json) → List Text
  | [] => []
  | (key, v) :: ms =>
    (string form.asciiOnly key ++ ": ".toList ++ write form level v) :: writeMembers form level ms

end

def render (form : Form) (v : Json) : Text := write form 0 v

end Json

end EntityScaffold
