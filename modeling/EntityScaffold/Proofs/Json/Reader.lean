import EntityScaffold.Entries
import EntityScaffold.Json
import EntityScaffold.Proofs.Text.Digits
import EntityScaffold.Yaml.Quoted
import Mathlib.Data.List.Basic

/-
JSON values read from their text, by the grammar of the format: the parts of a value may have blanks around them, and a text has
escapes for any code unit. Of two members with one key the later one counts, in the place of the first. Numbers are integers, as
they are in the values. What is written for a part of a value is read back, whatever stands after it.
-/

namespace EntityScaffold.Json

open Yaml (hexNumber? hexValue?)

section Reading

def isBlank (c : Char) : Bool := c = ' ' || c = '\t' || c = '\n' || c = '\r'

def pastBlanks (t : Text) : Text := t.dropWhile isBlank

/-- The code unit that four hexadecimal digits spell, and what stands after them. -/
def readUnit? : Text → Option (Nat × Text)
  | a :: b :: c :: d :: r => (hexNumber? [a, b, c, d]).map fun n => (n, r)
  | _ => none

def isHighSurrogate (unit : Nat) : Bool := 0xD800 ≤ unit && unit < 0xDC00

def isLowSurrogate (unit : Nat) : Bool := 0xDC00 ≤ unit && unit < 0xE000

/-- The character of an escape after the letter: a code unit, or a high surrogate with the escape of a low one. A surrogate that
stands alone is no character. -/
def readCode? (t : Text) : Option (Char × Text) := do
  let (unit, r) ← readUnit? t
  if isHighSurrogate unit then
    let (low, r) ← (['\\', 'u'].isPrefixOf? r).bind readUnit?
    if isLowSurrogate low then some (Char.ofNat (0x10000 + 0x400 * (unit - 0xD800) + (low - 0xDC00)), r) else none
  else if isLowSurrogate unit then none
  else some (Char.ofNat unit, r)

/-- The characters that have an escape of one letter, or of one sign. -/
def shortEscapes : List (Char × Nat) :=
  [('"', 34), ('\\', 92), ('/', 47), ('b', 8), ('f', 12), ('n', 10), ('r', 13), ('t', 9)]

/-- The next character of a text between quotes, and what stands after it. -/
def readChar? : Text → Option (Char × Text)
  | [] => none
  | c :: r =>
    if c = '\\' then
      match r with
      | [] => none
      | e :: r => if e = 'u' then readCode? r else (shortEscapes.lookup e).map fun n => (Char.ofNat n, r)
    else if c = '"' || c.toNat < 32 then none
    else some (c, r)

/-- A text from after its first quote on, and what stands after its last. The number bounds how many characters it has. -/
def readString? : Nat → Text → Option (Text × Text)
  | 0, _ => none
  | n + 1, t =>
    if t.head? = some '"' then some ([], t.tail)
    else do
      let (c, r) ← readChar? t
      let (s, r) ← readString? n r
      return (c :: s, r)

/-- An integer without leading zeros, and what stands after it. -/
def readNumber? (t : Text) : Option (Int × Text) :=
  let digits := (if t.head? = some '-' then t.tail else t).takeWhile Char.isDigit
  let rest := (if t.head? = some '-' then t.tail else t).dropWhile Char.isDigit
  let n : Int := Nat.ofDigitChars 10 digits 0
  if digits.isEmpty || (digits.head? = some '0' && 1 < digits.length) then none
  else some (if t.head? = some '-' then -n else n, rest)

def readWord? (t : Text) : Option (Json × Text) :=
  [("null".toList, null), ("true".toList, bool true), ("false".toList, bool false)].findSome? fun (word, v) =>
    (word.isPrefixOf? t).map fun r => (v, r)

variable {α : Type}

/-- Items with commas between them, up to the closing bracket; there is at least one. The number bounds how many there are. -/
def readSequence? (closing : Char) (item : Text → Option (α × Text)) : Nat → Text → Option (List α × Text)
  | 0, _ => none
  | n + 1, t => do
    let (v, r) ← item t
    match pastBlanks r with
    | [] => none
    | c :: r =>
      if c = ',' then
        let (vs, r) ← readSequence? closing item n r
        return (v :: vs, r)
      else if c = closing then some ([v], r)
      else none

/-- What stands between brackets, from after the opening one on. -/
def readBracketed? (closing : Char) (item : Text → Option (α × Text)) (t : Text) : Option (List α × Text) :=
  if (pastBlanks t).head? = some closing then some ([], (pastBlanks t).tail)
  else readSequence? closing item t.length t

def readMember? (value : Text → Option (α × Text)) (t : Text) : Option ((Text × α) × Text) := do
  let r ← ['"'].isPrefixOf? (pastBlanks t)
  let (key, r) ← readString? r.length r
  let r ← [':'].isPrefixOf? (pastBlanks r)
  let (v, r) ← value r
  return ((key, v), r)

/-- Members by their keys: of two with one key, the later one in the place of the first. -/
def ofMembers (members : List (Text × Json)) : Json := object (members.foldl (fun es m => Entries.put m.1 m.2 es) [])

/-- A value, and what stands after it. The number bounds how deep the value is nested. -/
def readValue? : Nat → Text → Option (Json × Text)
  | 0, _ => none
  | n + 1, t =>
    match pastBlanks t with
    | [] => none
    | c :: r =>
      if c = '"' then (readString? r.length r).map fun p => (text p.1, p.2)
      else if c = '[' then (readBracketed? ']' (readValue? n) r).map fun p => (list p.1, p.2)
      else if c = '\x7b' then
        (readBracketed? '\x7d' (readMember? (readValue? n)) r).map fun p => (ofMembers p.1, p.2)
      else (readWord? (c :: r)).or ((readNumber? (c :: r)).map fun p => (number p.1, p.2))

def read? (t : Text) : Option Json :=
  match readValue? t.length t with
  | some (v, r) => if (pastBlanks r).isEmpty then some v else none
  | none => none

end Reading

section Strings

variable {n : Nat} {c : Char} {r t : Text}

theorem hexValue?_digitChar : ∀ k < 16, hexValue? (Nat.digitChar k) = some k := by decide

theorem readUnit?_hex (h : n < 0x10000) (r : Text) : readUnit? (Text.hex 4 n ++ r) = some (n, r) := by
  have digit (k : Nat) (hk : k < 16) : hexValue? (Nat.digitChar k) = some k := hexValue?_digitChar k hk
  have number : hexNumber? (Text.hex 4 n) = some n := by
    rw [Text.hex_four h, hexNumber?]
    simp only [List.mapM_cons, List.mapM_nil, digit _ (Nat.mod_lt _ (by decide : 0 < 16)),
      digit (n / 16 / 16 / 16) (by omega), Option.pure_def, Option.bind_eq_bind, Option.bind_some, List.foldl_cons,
      List.foldl_nil, Option.some.injEq]
    omega
  rw [Text.hex_four h] at number ⊢
  simp only [List.cons_append, List.nil_append, readUnit?, number, Option.map_some]

theorem surrogates_of_char (c : Char) : isHighSurrogate c.toNat = false ∧ isLowSurrogate c.toNat = false := by
  have valid : c.toNat < 0xD800 ∨ (0xDFFF < c.toNat ∧ c.toNat < 0x110000) := c.valid
  simp only [isHighSurrogate, isLowSurrogate, Bool.and_eq_false_iff, decide_eq_false_iff_not]
  omega

theorem readCode?_escape {c : Char} (h : c.toNat < 0x10000) (r : Text) :
    readCode? (Text.hex 4 c.toNat ++ r) = some (c, r) := by
  obtain ⟨high, low⟩ := surrogates_of_char c
  simp [readCode?, readUnit?_hex h, high, low]

theorem readCode?_pair {high low : Nat} (hh : high < 0x10000) (hl : low < 0x10000) (isHigh : isHighSurrogate high = true)
    (isLow : isLowSurrogate low = true) (r : Text) : readCode? (Text.hex 4 high ++ (escapeUnit low ++ r)) =
      some (Char.ofNat (0x10000 + 0x400 * (high - 0xD800) + (low - 0xDC00)), r) := by
  have escape : ['\\', 'u'].isPrefixOf? (escapeUnit low ++ r) = some (Text.hex 4 low ++ r) :=
    List.isPrefixOf?_eq_some_iff_append_eq.2 rfl
  simp only [readCode?, readUnit?_hex hh, escape, readUnit?_hex hl, isHigh, isLow, Option.bind_eq_bind, Option.bind_some,
    if_true]

theorem readCode?_escapePair {c : Char} (h : 0x10000 ≤ c.toNat) (r : Text) :
    readCode? (Text.hex 4 (0xD800 + (c.toNat - 0x10000) / 0x400) ++
      (escapeUnit (0xDC00 + (c.toNat - 0x10000) % 0x400) ++ r)) = some (c, r) := by
  have valid : c.toNat < 0xD800 ∨ (0xDFFF < c.toNat ∧ c.toNat < 0x110000) := c.valid
  have high : isHighSurrogate (0xD800 + (c.toNat - 0x10000) / 0x400) = true := by
    simp only [isHighSurrogate, Bool.and_eq_true, decide_eq_true_eq]
    omega
  have low : isLowSurrogate (0xDC00 + (c.toNat - 0x10000) % 0x400) = true := by
    simp only [isLowSurrogate, Bool.and_eq_true, decide_eq_true_eq]
    omega
  have code : 0x10000 + 0x400 * (0xD800 + (c.toNat - 0x10000) / 0x400 - 0xD800) +
      (0xDC00 + (c.toNat - 0x10000) % 0x400 - 0xDC00) = c.toNat := by omega
  rw [readCode?_pair (by omega) (by omega) high low, code, Char.ofNat_toNat]

theorem readChar?_escapeUnit (n : Nat) (r : Text) : readChar? (escapeUnit n ++ r) = readCode? (Text.hex 4 n ++ r) := by
  rw [escapeUnit, List.cons_append, List.cons_append, readChar?, if_pos rfl]
  rfl

theorem readChar?_escapeChar (a : Bool) (c : Char) (r : Text) : readChar? (escapeChar a c ++ r) = some (c, r) := by
  have unit (h : c.toNat < 0x10000) : readChar? (escapeUnit c.toNat ++ r) = some (c, r) := by
    rw [readChar?_escapeUnit, readCode?_escape h]
  have coded {n : Nat} {d : Char} (hn : c.toNat = n) (hd : d.toNat = n) : c = d := Char.toNat_inj.1 (hn.trans hd.symm)
  unfold escapeChar
  dsimp only
  split
  · next h => rw [h]; rfl
  split
  · next h => rw [h]; rfl
  split
  · next h => rw [h]; rfl
  split
  · next h => rw [h]; rfl
  split
  · next h => rw [h]; rfl
  split
  · next h => rw [coded h (d := '\x08') rfl]; rfl
  split
  · next h => rw [coded h (d := '\x0c') rfl]; rfl
  split
  · next h => exact unit (by omega)
  split
  · unfold escapeCode
    split
    · next h => exact unit h
    · next h =>
      rw [List.append_assoc, readChar?_escapeUnit, readCode?_escapePair (Nat.le_of_not_lt h)]
  · next quote backslash _ _ _ _ _ control _ => simp [readChar?, quote, backslash, control]

theorem head?_escapeChar (a : Bool) (c : Char) (r : Text) : (escapeChar a c ++ r).head? ≠ some '"' := by
  have escaped (e : Text) : ('\\' :: e ++ r).head? ≠ some '"' := by simp
  unfold escapeChar
  dsimp only
  -- All but the last way to write a character start with a backslash.
  iterate 8
    split
    · exact escaped _
  split
  · unfold escapeCode
    split
    · exact escaped _
    · rw [escapeUnit, List.cons_append]
      exact escaped _
  · next quote _ _ _ _ _ _ _ _ => simpa using quote

theorem readString?_string (a : Bool) (t r : Text) (h : t.length < n) :
    readString? n (t.flatMap (escapeChar a) ++ '"' :: r) = some (t, r) := by
  induction t generalizing n with
  | nil =>
    obtain ⟨n, rfl⟩ : ∃ m, n = m + 1 := ⟨n - 1, by simp at h; omega⟩
    rfl
  | cons c t ih =>
    obtain ⟨n, rfl⟩ : ∃ m, n = m + 1 := ⟨n - 1, by simp at h; omega⟩
    have rest := ih (n := n) (by simpa using h)
    rw [List.flatMap_cons, List.append_assoc, readString?, if_neg (head?_escapeChar a c _), readChar?_escapeChar]
    simp [rest]

end Strings

section Numbers

variable {c : Char} {i : Int} {n : Nat} {ds r : Text}

/-- What may stand after a value: no digit that a number would go on with. -/
def Stops (r : Text) : Prop := ∀ c ∈ r.head?, c.isDigit = false

theorem stops_cons (h : c.isDigit = false) (r : Text) : Stops (c :: r) := by
  simpa [Stops] using h

theorem takeWhile_digits (digits : ∀ c ∈ ds, c.isDigit = true) (stops : Stops r) :
    (ds ++ r).takeWhile Char.isDigit = ds ∧ (ds ++ r).dropWhile Char.isDigit = r := by
  rw [List.takeWhile_append_of_pos digits, List.dropWhile_append_of_pos digits]
  cases r with
  | nil => simp
  | cons c r =>
    have other : c.isDigit = false := stops c rfl
    simp [other]

theorem readNumber?_ofInt (stops : Stops r) (i : Int) : readNumber? (Text.ofInt i ++ r) = some (i, r) := by
  have digits (n : Nat) : ∀ c ∈ Nat.toDigits 10 n, c.isDigit = true :=
    fun c hc => Nat.isDigit_of_mem_toDigits (by decide) (by decide) hc
  have value (n : Nat) : Nat.ofDigitChars 10 (Nat.toDigits 10 n) 0 = n := Nat.ofDigitChars_toDigits (by decide) (by decide)
  have shown (n : Nat) : (Nat.toDigits 10 n).isEmpty = false := by simp [Nat.toDigits_ne_nil]
  have plain (n : Nat) : ((Nat.toDigits 10 n).head? = some '0' && 1 < (Nat.toDigits 10 n).length) = false := by
    by_cases zero : n = 0
    · subst zero
      rfl
    · simp [Text.head?_toDigits zero]
  have read (n : Nat) := takeWhile_digits (digits n) stops
  rw [Text.ofInt, Int.toString_eq_repr]
  cases i with
  | ofNat n =>
    have unsigned : (Nat.toDigits 10 n ++ r).head? ≠ some '-' := by
      obtain ⟨d, ds, hd, digit⟩ := Text.exists_cons_toDigits n
      rintro minus
      obtain rfl : d = '-' := by simpa [hd] using minus
      exact absurd digit (by decide)
    change readNumber? (n.repr.toList ++ r) = _
    rw [Nat.toList_repr]
    simp only [readNumber?, if_neg unsigned, (read n).1, (read n).2, shown, plain, value, Bool.or_self]
    rfl
  | negSucc n =>
    change readNumber? (("-" ++ n.succ.repr).toList ++ r) = _
    rw [String.toList_append, Nat.toList_repr]
    change readNumber? ('-' :: (Nat.toDigits 10 n.succ ++ r)) = _
    simp only [readNumber?, List.head?_cons, List.tail_cons, if_true, (read n.succ).1, (read n.succ).2, shown, plain, value,
      Bool.or_self]
    rfl

end Numbers

end EntityScaffold.Json
