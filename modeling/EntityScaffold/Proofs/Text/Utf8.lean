import EntityScaffold.Text.Utf8

/- A text that is written as octets is read back, and octets that are read as a text are those of that text. -/

namespace EntityScaffold.Utf8

theorem toNat_cases (c : Char) : c.toNat < 0xD800 ∨ (0xDFFF < c.toNat ∧ c.toNat < 0x110000) := by
  have h := c.valid
  simp only [UInt32.isValidChar, Nat.isValidChar] at h
  exact h

theorem toNat_ofNat {n : Nat} (h : n < 256) : (UInt8.ofNat n).toNat = n := by
  simp [Nat.mod_eq_of_lt h]

theorem tails_cons {value low high owed n : Nat} {r : Octets} {result : Nat × Octets} (hn : n < 256) (hl : low ≤ n)
    (hh : n ≤ high) (h : tails (value * 64 + (n - 0x80)) 0x80 0xBF owed r = .ok result) :
    tails value low high (owed + 1) (UInt8.ofNat n :: r) = .ok result := by
  simp [tails, Nat.mod_eq_of_lt hn, hl, hh, h]

theorem decodeFrom_cons {position value : Nat} {b : UInt8} {r rest : Octets} {lead : Lead} {t : Text}
    (hlead : Lead.ofOctet? b = some lead)
    (htails : tails lead.share lead.low lead.high lead.owed r = .ok (value, rest))
    (hrest : decodeFrom (position + 1 + lead.owed) rest = .ok t) :
    decodeFrom position (b :: r) = .ok (Char.ofNat value :: t) := by
  rw [decodeFrom]
  split
  · next h => rw [hlead] at h; exact absurd h (by simp)
  · next lead' h =>
    rw [hlead] at h
    obtain rfl := Option.some.inj h
    split
    · next h' => rw [htails] at h'; exact absurd h' (by simp)
    · next h' =>
      rw [htails] at h'
      obtain ⟨rfl, rfl⟩ := Prod.mk.inj (Except.ok.inj h')
      rw [hrest]

theorem lead_two {n : Nat} (h : 0x80 ≤ n) (h' : n < 0x800) :
    Lead.ofOctet? (UInt8.ofNat (0xC0 + n / 64)) = some ⟨1, n / 64, 0x80, 0xBF⟩ := by
  simp only [Lead.ofOctet?, toNat_ofNat (show 0xC0 + n / 64 < 256 by omega)]
  rw [if_neg (by omega), if_neg (by omega), if_pos (by omega), Nat.add_sub_cancel_left]

theorem lead_three {n : Nat} (h : 0x800 ≤ n) (h' : n < 0x10000) :
    Lead.ofOctet? (UInt8.ofNat (0xE0 + n / 4096)) = some ⟨2, n / 4096, if n < 0x1000 then 0xA0 else 0x80,
      if 0xD000 ≤ n ∧ n < 0xE000 then 0x9F else 0xBF⟩ := by
  have low : 0xE0 + n / 4096 = 0xE0 ↔ n < 0x1000 := by omega
  have high : 0xE0 + n / 4096 = 0xED ↔ 0xD000 ≤ n ∧ n < 0xE000 := by omega
  simp only [Lead.ofOctet?, toNat_ofNat (show 0xE0 + n / 4096 < 256 by omega), low, high]
  rw [if_neg (by omega), if_neg (by omega), if_neg (by omega), if_pos (by omega), Nat.add_sub_cancel_left]

theorem lead_four {n : Nat} (h : 0x10000 ≤ n) (h' : n < 0x110000) :
    Lead.ofOctet? (UInt8.ofNat (0xF0 + n / 262144)) = some ⟨3, n / 262144, if n < 0x40000 then 0x90 else 0x80,
      if 0x100000 ≤ n then 0x8F else 0xBF⟩ := by
  have low : 0xF0 + n / 262144 = 0xF0 ↔ n < 0x40000 := by omega
  have high : 0xF0 + n / 262144 = 0xF4 ↔ 0x100000 ≤ n := by omega
  simp only [Lead.ofOctet?, toNat_ofNat (show 0xF0 + n / 262144 < 256 by omega), low, high]
  rw [if_neg (by omega), if_neg (by omega), if_neg (by omega), if_neg (by omega), if_pos (by omega),
    Nat.add_sub_cancel_left]

theorem decodeFrom_encodeChar (c : Char) {position : Nat} {rest : Octets} {t : Text}
    (h : ∀ k, decodeFrom k rest = .ok t) : decodeFrom position (encodeChar c ++ rest) = .ok (c :: t) := by
  have valid := toNat_cases c
  have back : Char.ofNat c.toNat = c := Char.ofNat_toNat c
  unfold encodeChar
  generalize c.toNat = n at valid back
  simp only [show Nat.pow 64 0 = 1 from rfl, show Nat.pow 64 1 = 64 from rfl, show Nat.pow 64 2 = 4096 from rfl,
    Nat.div_one]
  rw [← back]
  by_cases one : n < 0x80
  · have lead : Lead.ofOctet? (UInt8.ofNat n) = some ⟨0, n, 0x80, 0xBF⟩ := by
      simp only [Lead.ofOctet?, toNat_ofNat (show n < 256 by omega), if_pos one]
    rw [if_pos one]
    exact decodeFrom_cons lead rfl (h _)
  · rw [if_neg one]
    by_cases two : n < 0x800
    · rw [if_pos two]
      refine decodeFrom_cons (lead_two (by omega) two) (tails_cons (by omega) (Nat.le_add_right 128 _) ?_ ?_) (h _)
      · exact Nat.add_le_add_left (Nat.le_of_lt_succ (Nat.mod_lt n (by decide))) 128
      · rw [show n / 64 * 64 + (128 + n % 64 - 128) = n by omega]
        rfl
    · rw [if_neg two]
      by_cases three : n < 0x10000
      · rw [if_pos three]
        refine decodeFrom_cons (lead_three (by omega) three) (tails_cons (by omega) ?_ ?_
          (tails_cons (by omega) (by omega) (by omega) ?_)) (h _)
        · dsimp only
          split <;> omega
        · dsimp only
          split <;> omega
        · rw [show (n / 4096 * 64 + (128 + n / 64 % 64 - 128)) * 64 + (128 + n % 64 - 128) = n by omega]
          rfl
      · rw [if_neg three]
        refine decodeFrom_cons (lead_four (by omega) (by omega)) (tails_cons (by omega) ?_ ?_
          (tails_cons (by omega) (by omega) (by omega) (tails_cons (by omega) (by omega) (by omega) ?_))) (h _)
        · dsimp only
          split <;> omega
        · dsimp only
          split <;> omega
        · rw [show ((n / 262144 * 64 + (128 + n / 4096 % 64 - 128)) * 64 + (128 + n / 64 % 64 - 128)) * 64 +
            (128 + n % 64 - 128) = n by omega]
          rfl

theorem decode_encode (t : Text) : decode (encode t) = .ok t := by
  have whole (position : Nat) : decodeFrom position (encode t) = .ok t := by
    induction t generalizing position with
    | nil => rw [encode_nil, decodeFrom]
    | cons c t ih => exact decodeFrom_encodeChar c ih
  exact whole 0

section Octets

variable {b : UInt8} {r rest bs : Octets} {value low high owed position n : Nat} {lead : Lead} {t : Text}

theorem toNat_char (h : n < 0xD800 ∨ (0xDFFF < n ∧ n < 0x110000)) : (Char.ofNat n).toNat = n := by
  rw [Char.ofNat, dif_pos h]
  rfl

theorem ofNat_eq (h : n = b.toNat) : UInt8.ofNat n = b := by
  rw [h, UInt8.ofNat_toNat]

theorem tails_succ {p : Nat × Octets} (h : tails value low high (owed + 1) r = .ok p) :
    ∃ b r', r = b :: r' ∧ low ≤ b.toNat ∧ b.toNat ≤ high ∧
      tails (value * 64 + (b.toNat - 0x80)) 0x80 0xBF owed r' = .ok p := by
  cases r with
  | nil => exact absurd h (by simp [tails])
  | cons b r' =>
    rw [tails] at h
    split at h
    · next within =>
      simp only [Bool.and_eq_true, decide_eq_true_eq] at within
      refine ⟨b, r', rfl, within.1, within.2, ?_⟩
      split at h
      · next q hq => rw [hq, Except.ok.inj h]
      · exact absurd h (by simp)
    · exact absurd h (by simp)

theorem lead_cases (h : Lead.ofOctet? b = some lead) :
    (b.toNat < 0x80 ∧ lead = ⟨0, b.toNat, 0x80, 0xBF⟩) ∨
    (0xC2 ≤ b.toNat ∧ b.toNat < 0xE0 ∧ lead = ⟨1, b.toNat - 0xC0, 0x80, 0xBF⟩) ∨
    (0xE0 ≤ b.toNat ∧ b.toNat < 0xF0 ∧ lead = ⟨2, b.toNat - 0xE0, if b.toNat = 0xE0 then 0xA0 else 0x80,
      if b.toNat = 0xED then 0x9F else 0xBF⟩) ∨
    (0xF0 ≤ b.toNat ∧ b.toNat < 0xF5 ∧ lead = ⟨3, b.toNat - 0xF0, if b.toNat = 0xF0 then 0x90 else 0x80,
      if b.toNat = 0xF4 then 0x8F else 0xBF⟩) := by
  unfold Lead.ofOctet? at h
  dsimp only at h
  split at h
  · next one => exact Or.inl ⟨one, (Option.some.inj h).symm⟩
  · split at h
    · exact absurd h (by simp)
    · split at h
      · next two => exact Or.inr (Or.inl ⟨by omega, two, (Option.some.inj h).symm⟩)
      · split at h
        · next three => exact Or.inr (Or.inr (Or.inl ⟨by omega, three, (Option.some.inj h).symm⟩))
        · split at h
          · next four => exact Or.inr (Or.inr (Or.inr ⟨by omega, four, (Option.some.inj h).symm⟩))
          · exact absurd h (by simp)

theorem encodeChar_ofNat (valid : n < 0xD800 ∨ (0xDFFF < n ∧ n < 0x110000)) : encodeChar (Char.ofNat n) =
    if n < 0x80 then [UInt8.ofNat n]
    else if n < 0x800 then [UInt8.ofNat (0xC0 + n / 64), UInt8.ofNat (0x80 + n % 64)]
    else if n < 0x10000 then
      [UInt8.ofNat (0xE0 + n / 4096), UInt8.ofNat (0x80 + n / 64 % 64), UInt8.ofNat (0x80 + n % 64)]
    else [UInt8.ofNat (0xF0 + n / 262144), UInt8.ofNat (0x80 + n / 4096 % 64), UInt8.ofNat (0x80 + n / 64 % 64),
      UInt8.ofNat (0x80 + n % 64)] := by
  rw [encodeChar, toNat_char valid]
  simp only [show Nat.pow 64 0 = 1 from rfl, show Nat.pow 64 1 = 64 from rfl, show Nat.pow 64 2 = 4096 from rfl,
    Nat.div_one]

theorem encodeChar_of_tails (hlead : Lead.ofOctet? b = some lead)
    (htails : tails lead.share lead.low lead.high lead.owed r = .ok (value, rest)) :
    encodeChar (Char.ofNat value) ++ rest = b :: r := by
  rcases lead_cases hlead with ⟨one, rfl⟩ | ⟨low, two, rfl⟩ | ⟨low, three, rfl⟩ | ⟨low, four, rfl⟩
  · obtain ⟨hvalue, rfl⟩ := Prod.mk.inj (Except.ok.inj htails)
    dsimp only at hvalue
    rw [encodeChar_ofNat (Or.inl (by omega)), if_pos (by omega), ofNat_eq hvalue.symm]
    rfl
  · obtain ⟨b₁, r, rfl, low₁, high₁, htails⟩ := tails_succ htails
    dsimp only at low₁ high₁ htails
    obtain ⟨hvalue, rfl⟩ := Prod.mk.inj (Except.ok.inj htails)
    rw [encodeChar_ofNat (Or.inl (by omega)), if_neg (by omega), if_pos (by omega), ofNat_eq (b := b) (by omega),
      ofNat_eq (b := b₁) (by omega)]
    rfl
  · obtain ⟨b₁, r, rfl, low₁, high₁, htails⟩ := tails_succ htails
    obtain ⟨b₂, r, rfl, low₂, high₂, htails⟩ := tails_succ htails
    dsimp only at low₁ high₁ htails
    obtain ⟨hvalue, rfl⟩ := Prod.mk.inj (Except.ok.inj htails)
    -- the range of the second octet keeps out overlong forms and surrogates
    have least : 0x80 ≤ b₁.toNat ∧ 0x800 ≤ value := by split at low₁ <;> omega
    have most : b₁.toNat ≤ 0xBF ∧ (value < 0xD800 ∨ (0xDFFF < value ∧ value < 0x110000)) := by
      split at high₁ <;> omega
    rw [encodeChar_ofNat most.2, if_neg (by omega), if_neg (by omega), if_pos (by omega),
      ofNat_eq (b := b) (by omega), ofNat_eq (b := b₁) (by omega), ofNat_eq (b := b₂) (by omega)]
    rfl
  · obtain ⟨b₁, r, rfl, low₁, high₁, htails⟩ := tails_succ htails
    obtain ⟨b₂, r, rfl, low₂, high₂, htails⟩ := tails_succ htails
    obtain ⟨b₃, r, rfl, low₃, high₃, htails⟩ := tails_succ htails
    dsimp only at low₁ high₁ htails
    obtain ⟨hvalue, rfl⟩ := Prod.mk.inj (Except.ok.inj htails)
    have least : 0x80 ≤ b₁.toNat ∧ 0x10000 ≤ value := by split at low₁ <;> omega
    have most : b₁.toNat ≤ 0xBF ∧ value < 0x110000 := by split at high₁ <;> omega
    rw [encodeChar_ofNat (Or.inr (by omega)), if_neg (by omega), if_neg (by omega), if_neg (by omega),
      ofNat_eq (b := b) (by omega), ofNat_eq (b := b₁) (by omega), ofNat_eq (b := b₂) (by omega),
      ofNat_eq (b := b₃) (by omega)]
    rfl

theorem encode_of_decodeFrom (h : decodeFrom position bs = .ok t) : encode t = bs := by
  fun_induction decodeFrom position bs generalizing t with
  | case1 =>
    obtain rfl := Except.ok.inj h
    rfl
  | case2 => exact absurd h (by simp)
  | case3 => exact absurd h (by simp)
  | case4 => exact absurd h (by simp)
  | case5 position b r lead hlead value rest htails _ t' htail ih =>
    obtain rfl := Except.ok.inj h
    rw [encode, List.flatMap_cons, ← encode, ih htail]
    exact encodeChar_of_tails hlead htails

/-- Octets are read as a text exactly when they are the octets of that text. -/
theorem decode_eq_ok_iff : decode bs = .ok t ↔ encode t = bs :=
  ⟨encode_of_decodeFrom, fun h => h ▸ decode_encode t⟩

end Octets

end EntityScaffold.Utf8
