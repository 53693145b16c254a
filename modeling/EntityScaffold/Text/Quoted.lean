import EntityScaffold.Text.Basic
import EntityScaffold.Text.Printable

/-
Quoted text, as messages show it: between single quotes, or between double quotes when the text holds a single quote
and no double one. The quote in use, the backslash and whatever is not printable are escaped.
-/

namespace EntityScaffold.Text

/-- A number in hexadecimal digits, filled up with zeros to a width. -/
def hex (width n : Nat) : Text :=
  let ds := Nat.toDigits 16 n
  List.replicate (width - ds.length) '0' ++ ds

def escapeChar (quote c : Char) : Text :=
  let n := c.toNat
  if c = quote || c = '\\' then ['\\', c]
  else if c = '\t' then ['\\', 't']
  else if c = '\n' then ['\\', 'n']
  else if c = '\r' then ['\\', 'r']
  else if isPrintable c then [c]
  else if n < 0x100 then '\\' :: 'x' :: hex 2 n
  else if n < 0x10000 then '\\' :: 'u' :: hex 4 n
  else '\\' :: 'U' :: hex 8 n

def quoteOf (t : Text) : Char := if t.contains '\'' && !t.contains '"' then '"' else '\''

def quoted (t : Text) : Text :=
  let quote := quoteOf t
  quote :: t.flatMap (escapeChar quote) ++ [quote]

/-- An octet inside quotes: as the character of its number, if that is a visible one of the first hundred and twenty-eight. -/
def escapeOctet (quote : Char) (b : UInt8) : Text :=
  let n := b.toNat
  if n < 0x7F then escapeChar quote (Char.ofNat n) else '\\' :: 'x' :: hex 2 n

def quotedOctets (bs : List UInt8) : Text :=
  let quote := quoteOf (bs.map fun b => Char.ofNat b.toNat)
  'b' :: quote :: bs.flatMap (escapeOctet quote) ++ [quote]

end EntityScaffold.Text
