import EntityScaffold.Text.Basic

/- Lines: their count, the line ends that part a snippet, and one spelling for the line ends of a file. -/

namespace EntityScaffold.Text

/-- How many lines a sequence holds when each line ends with the given item; a last line without an end counts. -/
def lineCount {α : Type} [BEq α] (lineEnd : α) (t : List α) : Nat :=
  t.count lineEnd + if t.isEmpty || t.getLast? == some lineEnd then 0 else 1

def isLineEnd (c : Char) : Bool :=
  let n := c.toNat
  (10 ≤ n && n ≤ 13) || (28 ≤ n && n ≤ 30) || n = 133 || n = 8232 || n = 8233

def brokenLines : Text → List Text
  | [] => [[]]
  | c :: r =>
    if isLineEnd c then [] :: brokenLines r
    else match brokenLines r with
      | [] => [[c]]
      | l :: ls => (c :: l) :: ls

/-- Every line end is a line feed: a carriage return, with or without a line feed after it, becomes one. -/
def unifyLineEnds : Text → Text
  | [] => []
  | '\r' :: '\n' :: r => '\n' :: unifyLineEnds r
  | c :: r => (if c = '\r' then '\n' else c) :: unifyLineEnds r

/-- A text without carriage returns keeps its line ends. -/
theorem unifyLineEnds_of_not_mem {t : Text} (h : '\r' ∉ t) : unifyLineEnds t = t := by
  fun_induction unifyLineEnds t with
  | case1 => rfl
  | case2 => simp at h
  | case3 c r _ ih =>
    have hc : c ≠ '\r' := fun e => h (e ▸ List.mem_cons_self)
    simp [hc, ih fun hm => h (List.mem_cons_of_mem c hm)]

theorem not_mem_unifyLineEnds (t : Text) : '\r' ∉ unifyLineEnds t := by
  fun_induction unifyLineEnds t with
  | case1 => simp
  | case2 r ih => simpa using ih
  | case3 c r _ ih =>
    by_cases hc : c = '\r'
    · simpa [hc] using ih
    · simpa [hc, eq_comm] using ih

end EntityScaffold.Text
