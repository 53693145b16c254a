import EntityScaffold.Json
import EntityScaffold.Proofs.Text.Digits
import EntityScaffold.Proofs.Text.Lines

/-
The characters of a value's written form. Escapes are made of letters, digits and a few signs, so that a form that escapes
whatever is beyond ASCII is in ASCII as a whole.
-/

namespace EntityScaffold.Json

/-- What holds of a value when it holds of its items and of its members' values holds of all values. -/
theorem induct {motive : Json → Prop} (null : motive null) (bool : ∀ b, motive (bool b)) (number : ∀ i, motive (number i))
    (text : ∀ t, motive (text t)) (list : ∀ items, (∀ v ∈ items, motive v) → motive (list items))
    (object : ∀ members, (∀ m ∈ members, motive m.2) → motive (object members)) (v : Json) : motive v :=
  @Json.rec motive (fun items => ∀ v ∈ items, motive v) (fun members => ∀ m ∈ members, motive m.2) (fun m => motive m.2)
    null bool number text list object (by simp) (fun _ _ hv hvs => List.forall_mem_cons.2 ⟨hv, hvs⟩) (by simp)
    (fun _ _ hm hms => List.forall_mem_cons.2 ⟨hm, hms⟩) (fun _ _ hv => hv) v

section Parts

variable (form : Form) (level : Nat)

theorem writeItems_eq (items : List Json) : writeItems form level items = items.map (write form level) := by
  induction items with
  | nil => rw [writeItems, List.map_nil]
  | cons v vs ih => rw [writeItems, ih, List.map_cons]

/-- A member's key, with what stands between it and the value. -/
def writeKey (form : Form) (key : Text) : Text := string form.asciiOnly key ++ ": ".toList

def writeMember (form : Form) (level : Nat) (m : Text × Json) : Text := writeKey form m.1 ++ write form level m.2

theorem writeMembers_eq (members : List (Text × Json)) :
    writeMembers form level members = members.map (writeMember form level) := by
  induction members with
  | nil => rw [writeMembers, List.map_nil]
  | cons m ms ih => rw [writeMembers, ih, List.map_cons, writeMember, writeKey]

theorem write_list (items : List Json) : write form level (list items) =
    bracketed form.layout level '[' ']' (items.map (write form (level + 1))) := by
  rw [write, writeItems_eq]

theorem write_object (members : List (Text × Json)) : write form level (object members) =
    bracketed form.layout level '\x7b' '\x7d' (members.map (writeMember form (level + 1))) := by
  rw [write, writeMembers_eq]

end Parts

section Characters

variable {a : Bool} {c d : Char} {n : Nat}

/-- The characters that escapes are made of. -/
def escapeSigns : Text := "\\\"nrtbfu0123456789abcdef".toList

theorem mem_escapeUnit (h : c ∈ escapeUnit n) : c ∈ escapeSigns := by
  have digits : ∀ k < 16, Nat.digitChar k ∈ escapeSigns := by decide
  have marks : ∀ d ∈ ['\\', 'u'], d ∈ escapeSigns := by decide
  rcases List.mem_append.1 (show c ∈ ['\\', 'u'] ++ Text.hex 4 n from h) with h | h
  · exact marks c h
  · obtain ⟨k, hk, rfl⟩ := Text.mem_hex h
    exact digits k hk

theorem mem_escapeCode (h : c ∈ escapeCode n) : c ∈ escapeSigns := by
  unfold escapeCode at h
  split at h
  · exact mem_escapeUnit h
  · exact (List.mem_append.1 h).elim mem_escapeUnit mem_escapeUnit

theorem mem_escapeChar (h : d ∈ escapeChar a c) : d ∈ escapeSigns ∨ (d = c ∧ (a = true → c.toNat < 127)) := by
  have signs {t : Text} (ht : ∀ x ∈ t, x ∈ escapeSigns) (h : d ∈ t) : d ∈ escapeSigns := ht d h
  unfold escapeChar at h
  dsimp only at h
  -- Seven characters have short escapes.
  iterate 7
    split at h
    · exact Or.inl (signs (by decide) h)
  split at h
  · exact Or.inl (mem_escapeUnit h)
  split at h
  · exact Or.inl (mem_escapeCode h)
  · next shown =>
    refine Or.inr ⟨List.mem_singleton.1 h, fun ascii => ?_⟩
    simpa [ascii] using shown

def IsAscii (t : Text) : Prop := ∀ c ∈ t, c.toNat < 128

instance : DecidablePred IsAscii := fun t => inferInstanceAs (Decidable (∀ c ∈ t, c.toNat < 128))

theorem IsAscii.append {s t : Text} (hs : IsAscii s) (ht : IsAscii t) : IsAscii (s ++ t) :=
  fun c hc => (List.mem_append.1 hc).elim (hs c) (ht c)

theorem IsAscii.joinWith {sep : Text} {ts : List Text} (hsep : IsAscii sep) (h : ∀ t ∈ ts, IsAscii t) :
    IsAscii (Text.joinWith sep ts) := by
  intro c hc
  rcases Text.mem_joinWith hc with hc | ⟨t, ht, hc⟩
  · exact hsep c hc
  · exact h t ht c hc

theorem isAscii_ofInt (i : Int) : IsAscii (Text.ofInt i) := by
  intro c hc
  rcases Text.mem_ofInt hc with rfl | digit
  · decide
  · simp only [Char.isDigit, Bool.and_eq_true, decide_eq_true_eq] at digit
    exact Nat.lt_of_le_of_lt (UInt32.le_iff_toNat_le.1 digit.2) (by decide)

theorem isAscii_string (t : Text) : IsAscii (string true t) := by
  have quote : IsAscii ['"'] := by decide
  have signs : ∀ x ∈ escapeSigns, x.toNat < 128 := by decide
  refine (quote.append fun c hc => ?_).append quote
  obtain ⟨d, -, hc⟩ := List.mem_flatMap.1 hc
  rcases mem_escapeChar hc with sign | ⟨rfl, shown⟩
  · exact signs c sign
  · exact Nat.lt_succ_of_lt (shown rfl)

theorem isAscii_lead (layout : Layout) (level : Nat) : IsAscii (layout.lead level) := by
  intro c hc
  cases layout with
  | inline => exact absurd hc (by simp [Layout.lead])
  | indented width =>
    rcases List.mem_cons.1 hc with rfl | hc
    · decide
    · obtain rfl := List.eq_of_mem_replicate hc
      decide

theorem isAscii_comma (layout : Layout) (level : Nat) : IsAscii (layout.comma level) := by
  have mark : IsAscii [','] := by decide
  cases layout with
  | inline => exact (by decide : IsAscii ", ".toList)
  | indented width => exact mark.append (isAscii_lead (.indented width) level)

theorem isAscii_bracketed {opening closing : Char} {items : List Text} (ho : opening.toNat < 128) (hc : closing.toNat < 128)
    (h : ∀ t ∈ items, IsAscii t) (layout : Layout) (level : Nat) :
    IsAscii (bracketed layout level opening closing items) := by
  have mark {c : Char} (small : c.toNat < 128) : IsAscii [c] := List.forall_mem_singleton.2 small
  unfold bracketed
  split
  · exact (mark ho).append (mark hc)
  · have inside := ((isAscii_lead layout (level + 1)).append (.joinWith (isAscii_comma layout (level + 1)) h)).append
      (isAscii_lead layout level)
    exact ((mark ho).append inside).append (mark hc)

theorem isAscii_write (layout : Layout) (level : Nat) (v : Json) : IsAscii (write ⟨layout, true⟩ level v) := by
  induction v using induct generalizing level with
  | null => rw [write]; decide
  | bool b => cases b <;> rw [write] <;> decide
  | number i => rw [write]; exact isAscii_ofInt i
  | text t => rw [write]; exact isAscii_string t
  | list items ih =>
    rw [write_list]
    exact isAscii_bracketed (by decide) (by decide) (List.forall_mem_map.2 fun v hv => ih v hv (level + 1)) layout level
  | object members ih =>
    have colon : IsAscii ": ".toList := by decide
    rw [write_object]
    refine isAscii_bracketed (by decide) (by decide) (List.forall_mem_map.2 fun m hm => ?_) layout level
    exact ((isAscii_string m.1).append colon).append (ih m hm (level + 1))

end Characters

end EntityScaffold.Json
