import EntityScaffold.Naming
import EntityScaffold.Proofs.Text.LetterCase
import EntityScaffold.Text.Blank
import Mathlib.Data.List.Infix

/-
Identifiers: names that an entity can have. The names derived from one are made of the same characters.
-/

namespace EntityScaffold.Naming

open Text (isBlank CaseRun lowerRuns longLower)

/-- A letter: one of the alphabet, or any code point beyond ASCII that is no blank. -/
def isLetter (c : Char) : Bool := c.isAlpha || (127 < c.toNat && !isBlank c)

def isWordChar (c : Char) : Bool := isLetter c || c.isDigit || c = '_'

/-- A character of an address prefix: one of a word, a slash, a hyphen, an underscore or a dot. -/
def isAddressChar (c : Char) : Bool := isWordChar c || c = '/' || c = '-' || c = '.'

/-- The name of an entity: a letter, and then letters, digits and underscores. -/
structure Identifier where
  name : Text
  starts : name.head?.any isLetter = true
  word : name.all isWordChar = true
  deriving DecidableEq

/-- A prefix for the addresses of an entity. -/
structure AddressPrefix where
  text : Text
  address : text.all isAddressChar = true
  deriving DecidableEq

theorem isWordChar_of_isLetter {c : Char} (h : isLetter c = true) : isWordChar c = true := by
  simp [isWordChar, h]

theorem isAddressChar_of_isWordChar {c : Char} (h : isWordChar c = true) : isAddressChar c = true := by
  simp [isAddressChar, h]

theorem isBlank_eq_false_of_between {c : Char} (h : 32 < c.toNat) (h' : c.toNat < 128) : isBlank c = false := by
  simp only [isBlank, Bool.or_eq_false_iff, Bool.and_eq_false_iff, decide_eq_false_iff_not]
  omega

theorem isAlpha_iff (c : Char) :
    c.isAlpha = true ↔ (65 ≤ c.toNat ∧ c.toNat ≤ 90) ∨ (97 ≤ c.toNat ∧ c.toNat ≤ 122) := by
  change (decide ('A'.val ≤ c.val ∧ c.val ≤ 'Z'.val) || (decide ('a'.val ≤ c.val) && decide (c.val ≤ 'z'.val))) = true ↔ _
  simp only [Bool.or_eq_true, Bool.and_eq_true, decide_eq_true_eq, UInt32.le_iff_toNat_le]
  rfl

theorem isBlank_eq_false_of_isAddressChar {c : Char} (h : isAddressChar c = true) : isBlank c = false := by
  simp only [isAddressChar, isWordChar, isLetter, isAlpha_iff, Char.isDigit, Bool.or_eq_true, Bool.and_eq_true,
    decide_eq_true_eq, UInt32.le_iff_toNat_le, ge_iff_le] at h
  change (((((((65 ≤ c.toNat ∧ c.toNat ≤ 90) ∨ (97 ≤ c.toNat ∧ c.toNat ≤ 122)) ∨ (127 < c.toNat ∧ _)) ∨
    (48 ≤ c.toNat ∧ c.toNat ≤ 57)) ∨ c = '_') ∨ c = '/') ∨ c = '-') ∨ c = '.' at h
  rcases h with ((((((h | h) | ⟨-, h⟩) | h) | rfl) | rfl) | rfl) | rfl
  · exact isBlank_eq_false_of_between (by omega) (by omega)
  · exact isBlank_eq_false_of_between (by omega) (by omega)
  · simpa using h
  · exact isBlank_eq_false_of_between (by omega) (by omega)
  all_goals decide

/-- Whether all code points of a range are letters: small ones of the alphabet, or ones beyond ASCII with no blank among them. -/
def isLetterRange (low high : Nat) : Bool :=
  (97 ≤ low && high ≤ 122) ||
  (127 < low && (high < 0xD800 || (0xDFFF < low && high < 0x110000)) &&
    [(133, 133), (160, 160), (5760, 5760), (8192, 8202), (8232, 8233), (8239, 8239), (8287, 8287), (12288, 12288)].all
      fun (first, last) => high < first || last < low)

theorem isLetter_ofNat {low high n : Nat} (h : isLetterRange low high = true) (hl : low ≤ n) (hh : n ≤ high) :
    isLetter (Char.ofNat n) = true := by
  simp only [isLetterRange, List.all_cons, List.all_nil, Bool.or_eq_true, Bool.and_eq_true, decide_eq_true_eq] at h
  have valid : n.isValidChar := by
    simp only [Nat.isValidChar]
    omega
  have hn : (Char.ofNat n).toNat = n := by
    rw [Char.ofNat, dif_pos valid]
    rfl
  rcases h with h | ⟨⟨h, -⟩, blanks⟩
  · rw [isLetter, Bool.or_eq_true, isAlpha_iff, hn]
    omega
  · have hblank : isBlank (Char.ofNat n) = false := by
      simp only [isBlank, hn, Bool.or_eq_false_iff, Bool.and_eq_false_iff, decide_eq_false_iff_not]
      omega
    simp only [isLetter, hblank, hn, Bool.not_false, Bool.and_true, Bool.or_eq_true, decide_eq_true_eq]
    right
    omega

theorem isLetter_of_mem_lowerChar {c d : Char} (hc : isLetter c = true) (hd : d ∈ Text.lowerChar c) :
    isLetter d = true := by
  have runs : ∀ r ∈ lowerRuns, 0 ≤ r.first + r.shift ∧
      isLetterRange (r.first + r.shift).toNat (r.last + r.shift).toNat = true := by decide +kernel
  have long : ∀ p ∈ longLower, ∀ n ∈ p.2, isLetter (Char.ofNat n) = true := by decide +kernel
  unfold Text.lowerChar Text.otherCase at hd
  split at hd
  · next p hp =>
    obtain ⟨n, hn, rfl⟩ := List.mem_map.1 hd
    exact long p (List.mem_of_find?_eq_some hp) n hn
  · split at hd
    · next r hr =>
      obtain rfl := List.mem_singleton.1 hd
      obtain ⟨hshift, range⟩ := runs r (List.mem_of_find?_eq_some hr)
      have held : r.holds c.toNat = true := by simpa using List.find?_some hr
      simp only [CaseRun.holds, Bool.and_eq_true, decide_eq_true_eq] at held
      exact isLetter_ofNat range (by omega) (by omega)
    · obtain rfl := List.mem_singleton.1 hd
      exact hc

theorem not_mem_lowerCamel {t : Text} {c : Char} (small : c.toNat < 65) (h : c ∉ t) : c ∉ lowerCamel t := by
  cases t with
  | nil => exact h
  | cons d r =>
    obtain ⟨hd, hr⟩ := not_or.1 (mt List.mem_cons.2 h)
    intro mem
    rcases List.mem_append.1 mem with mem | mem
    · exact hd (Text.eq_of_mem_lowerChar mem small)
    · exact hr mem

theorem isWordChar_of_mem_lowerCamel (e : Identifier) {c : Char} (h : c ∈ lowerCamel e.name) : isWordChar c = true := by
  obtain ⟨name, starts, word⟩ := e
  cases name with
  | nil => simp at starts
  | cons d r =>
    rcases List.mem_append.1 h with h | h
    · exact isWordChar_of_isLetter (isLetter_of_mem_lowerChar (by simpa using starts) h)
    · exact List.all_eq_true.1 word c (List.mem_cons_of_mem d h)

theorem mem_of_mem_plural {word : Text} {c : Char} (h : c ∈ plural word) : c ∈ word ∨ c ∈ "ies".toList := by
  unfold plural at h
  split at h
  · simp at h
  · next d r hr =>
    have hword : word = (d :: r).reverse ++ ['y'] := by simpa using congrArg List.reverse hr
    split at h
    · rcases List.mem_append.1 h with h | h
      · exact Or.inl h
      · obtain rfl := List.mem_singleton.1 h
        exact Or.inr (by decide)
    · rcases List.mem_append.1 h with h | h
      · exact Or.inl (hword ▸ List.mem_append_left ['y'] h)
      · exact Or.inr h
  · split at h
    · rcases List.mem_append.1 h with h | h
      · exact Or.inl h
      · exact Or.inr (List.mem_cons_of_mem 'i' h)
    · rcases List.mem_append.1 h with h | h
      · exact Or.inl h
      · obtain rfl := List.mem_singleton.1 h
        exact Or.inr (by decide)

theorem isWordChar_of_mem_plural (e : Identifier) {c : Char} (h : c ∈ plural (lowerCamel e.name)) :
    isWordChar c = true := by
  have endings : "ies".toList.all isWordChar = true := by decide
  rcases mem_of_mem_plural h with h | h
  · exact isWordChar_of_mem_lowerCamel e h
  · exact List.all_eq_true.1 endings c h

theorem isAddressChar_of_mem_trimEnd (p : AddressPrefix) {c : Char} (h : c ∈ Text.trimEnd (· = '/') p.text) :
    isAddressChar c = true := by
  refine List.all_eq_true.1 p.address c ?_
  have := (List.dropWhile_suffix (· = '/')).subset (List.mem_reverse.1 h)
  simpa using this

end EntityScaffold.Naming
