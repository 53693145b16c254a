import EntityScaffold.Text.Basic
import EntityScaffold.Text.CaseContext
import EntityScaffold.Text.CaseTable

/-
Lower and upper case of texts: each code point by the full mapping, which may give more than one code point. A capital sigma at
the end of a word has a lower case of its own.
-/

namespace EntityScaffold.Text

def CaseRun.holds (r : CaseRun) (n : Nat) : Bool := r.first ≤ n && n ≤ r.last && (n - r.first) % r.step = 0

/-- The other case of a character: the longer form if it has one, else the shifted code point, else itself. -/
def otherCase (runs : List CaseRun) (long : List (Nat × List Nat)) (c : Char) : Text :=
  match long.find? fun p => p.1 = c.toNat with
  | some p => p.2.map Char.ofNat
  | none =>
    match runs.find? fun r => r.holds c.toNat with
    | some r => [Char.ofNat (c.toNat + r.shift).toNat]
    | none => [c]

def lowerChar (c : Char) : Text := otherCase lowerRuns longLower c

def upperChar (c : Char) : Text := otherCase upperRuns longUpper c

/-- Whether a cased character comes next, others that do not count left aside. -/
def startsCased (t : Text) : Bool := (t.dropWhile isPassedOver).head?.any isCased

/-- The text in lower case, after a cased character or not. -/
def lowerAfter (afterCased : Bool) : Text → Text
  | [] => []
  | c :: r =>
    (if c ≠ 'Σ' then lowerChar c else if afterCased && !startsCased r then ['ς'] else ['σ']) ++
      lowerAfter (if isPassedOver c then afterCased else isCased c) r

def lower (t : Text) : Text := if t.contains 'Σ' then lowerAfter false t else t.flatMap lowerChar

def upper (t : Text) : Text := t.flatMap upperChar

end EntityScaffold.Text
