import EntityScaffold.Text.Basic

/- Blanks: which code points separate words, texts without blank ends, and the words of a text. -/

namespace EntityScaffold.Text

/-- A blank: one of the twenty-nine code points that separate words, line ends and no-break spaces included. -/
def isBlank (c : Char) : Bool :=
  let n := c.toNat
  (9 ≤ n && n ≤ 13) || (28 ≤ n && n ≤ 32) || n = 133 || n = 160 || n = 5760 ||
  (8192 ≤ n && n ≤ 8202) || n = 8232 || n = 8233 || n = 8239 || n = 8287 || n = 12288

def strip (t : Text) : Text := trim isBlank t

/-- The words of a text: its longest stretches without a blank. -/
def words : Text → List Text
  | [] => []
  | c :: r =>
    if isBlank c then words r
    else match r with
      | [] => [[c]]
      | d :: _ =>
        if isBlank d then [c] :: words r
        else match words r with
          | [] => [[c]]
          | w :: ws => (c :: w) :: ws

theorem ne_nil_of_mem_words {t w : Text} (h : w ∈ words t) : w ≠ [] := by
  induction t generalizing w with
  | nil => simp [words] at h
  | cons c r ih =>
    unfold words at h
    split at h
    · exact ih h
    · split at h
      · simp_all
      · split at h
        · rcases List.mem_cons.1 h with rfl | h
          · simp
          · exact ih h
        · split at h
          · simp_all
          · next hw =>
            rcases List.mem_cons.1 h with rfl | h
            · simp
            · exact ih (hw ▸ List.mem_cons_of_mem _ h)

end EntityScaffold.Text
