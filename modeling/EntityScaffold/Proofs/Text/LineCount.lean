import EntityScaffold.Proofs.Text.Utf8
import EntityScaffold.Text.Lines
import Mathlib.Data.List.Basic

/- The lines of a text can be counted in its octets: no other character than a line feed has the octet of one. -/

namespace EntityScaffold.Utf8

theorem encodeChar_ne_nil (c : Char) : encodeChar c ≠ [] := by
  unfold encodeChar
  dsimp only
  split
  · simp
  · split
    · simp
    · split <;> simp

theorem ofNat_ne_lineFeed {n : Nat} (h : n < 256) (hne : n ≠ 10) : UInt8.ofNat n ≠ 10 := by
  intro he
  have := congrArg UInt8.toNat he
  rw [toNat_ofNat h] at this
  exact hne this

theorem lineFeed_not_mem_encodeChar {c : Char} (h : c ≠ '\n') : 10 ∉ encodeChar c := by
  have hn : c.toNat ≠ 10 := fun he => h (Char.toNat_inj.1 he)
  have top : c.toNat < 0x110000 := by
    have := toNat_cases c
    omega
  have tail (k : Nat) : (10 : UInt8) ≠ UInt8.ofNat (0x80 + c.toNat / Nat.pow 64 k % 64) :=
    (ofNat_ne_lineFeed (by omega) (by omega)).symm
  have lead {n : Nat} (hlow : n < 256) (hne : n ≠ 10) : (10 : UInt8) ≠ UInt8.ofNat n :=
    (ofNat_ne_lineFeed hlow hne).symm
  unfold encodeChar
  dsimp only
  split
  · simpa using lead (by omega) hn
  · split
    · simp only [List.mem_cons, List.not_mem_nil, or_false, not_or]
      exact ⟨lead (by omega) (by omega), tail 0⟩
    · split
      · simp only [List.mem_cons, List.not_mem_nil, or_false, not_or]
        exact ⟨lead (by omega) (by omega), tail 1, tail 0⟩
      · simp only [List.mem_cons, List.not_mem_nil, or_false, not_or]
        exact ⟨lead (by omega) (by omega), tail 2, tail 1, tail 0⟩

theorem count_encode (t : Text) : (encode t).count 10 = t.count '\n' := by
  induction t with
  | nil => rfl
  | cons c r ih =>
    rw [show encode (c :: r) = encodeChar c ++ encode r from rfl, List.count_append, ih]
    by_cases hc : c = '\n'
    · subst hc
      rw [List.count_cons_self, Nat.add_comm]
      rfl
    · rw [List.count_eq_zero.2 (lineFeed_not_mem_encodeChar hc), List.count_cons_of_ne hc, Nat.zero_add]

theorem getLast?_encode (t : Text) : (encode t).getLast? = some 10 ↔ t.getLast? = some '\n' := by
  rcases List.eq_nil_or_concat t with rfl | ⟨init, c, rfl⟩
  · simp
  · rw [List.concat_eq_append, encode_append, show encode [c] = encodeChar c by simp [encode],
      List.getLast?_append_of_ne_nil _ (encodeChar_ne_nil c), List.getLast?_append_of_ne_nil _ (by simp)]
    by_cases hc : c = '\n'
    · subst hc
      exact ⟨fun _ => rfl, fun _ => rfl⟩
    · constructor
      · intro h
        exact absurd (List.mem_of_getLast? h) (lineFeed_not_mem_encodeChar hc)
      · intro h
        exact absurd (by simpa using h) hc

theorem lineCount_encode (t : Text) : Text.lineCount 10 (encode t) = Text.lineCount '\n' t := by
  have empty : (encode t).isEmpty = t.isEmpty := by
    cases t with
    | nil => rfl
    | cons c r => simp [encode, encodeChar_ne_nil]
  have last : ((encode t).getLast? == some 10) = (t.getLast? == some '\n') := by
    rw [Bool.eq_iff_iff, beq_iff_eq, beq_iff_eq]
    exact getLast?_encode t
  rw [Text.lineCount, Text.lineCount, count_encode, empty, last]

end EntityScaffold.Utf8
