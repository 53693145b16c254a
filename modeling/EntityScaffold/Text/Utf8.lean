import EntityScaffold.Text.Basic

/-
UTF-8: a text as octets, and octets read as a text. Reading names the first octets that are no part of a text:
an octet that starts none, a start whose continuation is missing or out of range, or a start at the very end.
-/

namespace EntityScaffold

abbrev Octets := List UInt8

namespace Utf8

def encodeChar (c : Char) : Octets :=
  let n := c.toNat
  let tail (k : Nat) : UInt8 := UInt8.ofNat (0x80 + n / Nat.pow 64 k % 64)
  if n < 0x80 then [UInt8.ofNat n]
  else if n < 0x800 then [UInt8.ofNat (0xC0 + n / 64), tail 0]
  else if n < 0x10000 then [UInt8.ofNat (0xE0 + n / 4096), tail 1, tail 0]
  else [UInt8.ofNat (0xF0 + n / 262144), tail 2, tail 1, tail 0]

def encode (t : Text) : Octets := t.flatMap encodeChar

@[simp] theorem encode_nil : encode [] = [] := rfl

@[simp] theorem encode_append (s t : Text) : encode (s ++ t) = encode s ++ encode t := by
  simp [encode]

/-- Why octets are no text. -/
inductive Cause where
  | badStart
  /-- An octet stands where a continuation with another value has to. -/
  | badContinuation
  /-- The octets end inside a code point. -/
  | truncated
  deriving DecidableEq, Repr

/-- The first octets that are no part of a text: where they start, the octets themselves, and the cause. -/
structure Fault where
  position : Nat
  octets : Octets
  cause : Cause
  deriving DecidableEq, Repr

/-- What the first octet of a code point asks for: how many continuations, its own share of the value, and the range of the
first continuation, which keeps out overlong forms, surrogates and values above the last code point. -/
structure Lead where
  owed : Nat
  share : Nat
  low : Nat
  high : Nat
  deriving DecidableEq, Repr

def Lead.ofOctet? (b : UInt8) : Option Lead :=
  let n := b.toNat
  if n < 0x80 then some ⟨0, n, 0x80, 0xBF⟩
  else if n < 0xC2 then none
  else if n < 0xE0 then some ⟨1, n - 0xC0, 0x80, 0xBF⟩
  else if n < 0xF0 then
    some ⟨2, n - 0xE0, if n = 0xE0 then 0xA0 else 0x80, if n = 0xED then 0x9F else 0xBF⟩
  else if n < 0xF5 then
    some ⟨3, n - 0xF0, if n = 0xF0 then 0x90 else 0x80, if n = 0xF4 then 0x8F else 0xBF⟩
  else none

/-- The continuations of a code point: its value and the octets after it, or how many octets were good and why the next is not. -/
def tails (value low high : Nat) : Nat → Octets → Except (Nat × Cause) (Nat × Octets)
  | 0, r => .ok (value, r)
  | _ + 1, [] => .error (0, .truncated)
  | owed + 1, b :: r =>
    if low ≤ b.toNat && b.toNat ≤ high then
      match tails (value * 64 + (b.toNat - 0x80)) 0x80 0xBF owed r with
      | .ok p => .ok p
      | .error (k, cause) => .error (k + 1, cause)
    else .error (0, .badContinuation)

/-- Continuations leave no more octets than they found. -/
theorem length_of_tails {value low high owed : Nat} {r rest : Octets} {v : Nat}
    (h : tails value low high owed r = .ok (v, rest)) : rest.length ≤ r.length := by
  fun_induction tails value low high owed r with
  | case1 => simp_all
  | case2 => simp at h
  | case3 _ _ _ _ _ _ _ p hp ih =>
    obtain rfl := Except.ok.inj h
    exact Nat.le_succ_of_le (ih hp)
  | case4 => simp at h
  | case5 => simp at h

/-- Reads octets that start at a position as a text. -/
def decodeFrom (position : Nat) : Octets → Except Fault Text
  | [] => .ok []
  | b :: r =>
    match Lead.ofOctet? b with
    | none => .error ⟨position, [b], .badStart⟩
    | some lead =>
      match h : tails lead.share lead.low lead.high lead.owed r with
      | .error (k, cause) => .error ⟨position, b :: r.take k, cause⟩
      | .ok (value, rest) =>
        have : rest.length < (b :: r).length := Nat.lt_succ_of_le (length_of_tails h)
        match decodeFrom (position + 1 + lead.owed) rest with
        | .error fault => .error fault
        | .ok t => .ok (Char.ofNat value :: t)
  termination_by bs => bs.length
  decreasing_by exact this

def decode (bs : Octets) : Except Fault Text := decodeFrom 0 bs

def hexOctet (b : UInt8) : Text :=
  [Nat.digitChar (b.toNat / 16), Nat.digitChar (b.toNat % 16)]

def Cause.message : Cause → Text
  | .badStart => "invalid start byte".toList
  | .badContinuation => "invalid continuation byte".toList
  | .truncated => "unexpected end of data".toList

def Fault.message (f : Fault) : Text :=
  let place :=
    match f.octets with
    | [b] => "byte 0x".toList ++ hexOctet b ++ " in position ".toList ++ Text.ofNat f.position
    | bs => "bytes in position ".toList ++ Text.ofNat f.position ++ "-".toList ++
        Text.ofNat (f.position + bs.length - 1)
  "'utf-8' codec can't decode ".toList ++ place ++ ": ".toList ++ f.cause.message

end Utf8

end EntityScaffold
