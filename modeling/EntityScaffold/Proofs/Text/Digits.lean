import EntityScaffold.Text.Quoted

/- Numbers as texts: the characters that their digits are, and which of them stand first and last. -/

namespace EntityScaffold.Text

variable {c : Char} {n width : Nat}

theorem mem_toDigits {base : Nat} (positive : 0 < base) (h : c ∈ Nat.toDigits base n) :
    ∃ k < base, c = Nat.digitChar k := by
  have core (fuel n : Nat) (ds : Text) (h : c ∈ Nat.toDigitsCore base fuel n ds) :
      c ∈ ds ∨ ∃ k < base, c = Nat.digitChar k := by
    induction fuel generalizing n ds with
    | zero => exact Or.inl h
    | succ fuel ih =>
      have digit (h : c ∈ Nat.digitChar (n % base) :: ds) : c ∈ ds ∨ ∃ k < base, c = Nat.digitChar k := by
        rcases List.mem_cons.1 h with rfl | h
        · exact Or.inr ⟨_, Nat.mod_lt n positive, rfl⟩
        · exact Or.inl h
      rw [Nat.toDigitsCore] at h
      split at h
      · exact digit h
      · exact (ih _ _ h).elim digit Or.inr
  exact (core _ n [] h).resolve_left (by simp)

section Decimal

theorem exists_cons_toDigits (n : Nat) : ∃ d ds, Nat.toDigits 10 n = d :: ds ∧ d.isDigit = true := by
  obtain ⟨d, ds, h⟩ := List.exists_cons_of_ne_nil (Nat.toDigits_ne_nil (n := n) (b := 10))
  exact ⟨d, ds, h, Nat.isDigit_of_mem_toDigits (by decide) (by decide) (h ▸ List.mem_cons_self)⟩

theorem head?_toDigits (h : n ≠ 0) : (Nat.toDigits 10 n).head? ≠ some '0' := by
  induction n using Nat.strongRecOn with
  | _ n ih =>
    by_cases small : n < 10
    · have digits : ∀ k < 10, k ≠ 0 → Nat.digitChar k ≠ '0' := by decide
      rw [Nat.toDigits_of_lt_base small]
      simpa using digits n small h
    · have front := ih (n / 10) (by omega) (by omega)
      obtain ⟨d, ds, hd, -⟩ := exists_cons_toDigits (n / 10)
      rw [Nat.toDigits_of_base_le (by decide) (Nat.le_of_not_lt small), hd]
      rwa [hd] at front

theorem mem_ofInt {i : Int} (h : c ∈ ofInt i) : c = '-' ∨ c.isDigit = true := by
  have natural {n : Nat} (h : c ∈ n.repr.toList) : c.isDigit = true := by
    rw [Nat.toList_repr] at h
    exact Nat.isDigit_of_mem_toDigits (by decide) (by decide) h
  rw [ofInt, Int.toString_eq_repr] at h
  cases i with
  | ofNat n => exact Or.inr (natural h)
  | negSucc n =>
    change c ∈ ("-" ++ n.succ.repr).toList at h
    rw [String.toList_append, List.mem_append] at h
    exact h.imp (by simp) natural

end Decimal

section Hexadecimal

theorem mem_hex (h : c ∈ hex width n) : ∃ k < 16, c = Nat.digitChar k := by
  rcases List.mem_append.1 h with h | h
  · exact ⟨0, by decide, List.eq_of_mem_replicate h⟩
  · exact mem_toDigits (by decide) h

theorem hex_succ (width n : Nat) :
    hex (width + 2) n = hex (width + 1) (n / 16) ++ [Nat.digitChar (n % 16)] := by
  unfold hex
  by_cases small : n < 16
  · rw [Nat.toDigits_of_lt_base small, Nat.div_eq_of_lt small, Nat.mod_eq_of_lt small]
    change List.replicate (width + 1) '0' ++ _ = (List.replicate width '0' ++ ['0']) ++ _
    rw [List.replicate_succ']
  · rw [Nat.toDigits_of_base_le (by decide) (Nat.le_of_not_lt small)]
    simp

theorem hex_four (h : n < 0x10000) : hex 4 n = [Nat.digitChar (n / 16 / 16 / 16), Nat.digitChar (n / 16 / 16 % 16),
    Nat.digitChar (n / 16 % 16), Nat.digitChar (n % 16)] := by
  have first : hex 1 (n / 16 / 16 / 16) = [Nat.digitChar (n / 16 / 16 / 16)] := by
    rw [hex, Nat.toDigits_of_lt_base (by omega)]
    rfl
  rw [hex_succ, hex_succ, hex_succ, first]
  rfl

end Hexadecimal

end EntityScaffold.Text
