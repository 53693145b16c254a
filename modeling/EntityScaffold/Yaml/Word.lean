import EntityScaffold.Text.Basic

/- Parts of plain words that numbers, days and moments share. -/

namespace EntityScaffold.Yaml

def isSign (c : Char) : Bool := c = '+' || c = '-'

def unsigned : Text → Text
  | [] => []
  | c :: r => if isSign c then r else c :: r

def withoutLastBreak (t : Text) : Text := if t.getLast? = some '\n' then t.dropLast else t

/-- The number that decimal digits spell. -/
def naturalOf (t : Text) : Nat := t.foldl (fun n c => 10 * n + (c.toNat - 48)) 0

end EntityScaffold.Yaml
