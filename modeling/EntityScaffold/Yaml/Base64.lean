import EntityScaffold.Text.Utf8
import EntityScaffold.Yaml.Fault

/-
Octet strings that letters spell, four letters for three octets. A sign of equality stands for a letter that is missing in the
last group; what follows it is not looked at.
-/

namespace EntityScaffold.Yaml

def sextet? (c : Char) : Option Nat :=
  let n := c.toNat
  if 'A' ≤ c && c ≤ 'Z' then some (n - 65)
  else if 'a' ≤ c && c ≤ 'z' then some (n - 71)
  else if c.isDigit then some (n + 4)
  else if c = '+' then some 62
  else if c = '/' then some 63
  else none

/-- The octets that a group of letters makes whole. -/
def groupOctets : List Nat → Octets
  | [a, b] => [UInt8.ofNat ((a * 64 + b) / 16)]
  | [a, b, c] =>
    let n := (a * 64 + b) * 64 + c
    [UInt8.ofNat (n / 1024), UInt8.ofNat (n / 4 % 256)]
  | [a, b, c, d] =>
    let n := ((a * 64 + b) * 64 + c) * 64 + d
    [UInt8.ofNat (n / 65536), UInt8.ofNat (n / 256 % 256), UInt8.ofNat (n % 256)]
  | _ => []

/-- Reads on after the letters of a group and so many signs for missing ones, which end the reading when they make the group whole.
Characters that are neither are passed over. The text must not end within a group. -/
def octetsAfter (group : List Nat) (missing : Nat) : Text → Option Octets
  | [] => if group.isEmpty then some [] else none
  | c :: r =>
    if c = '=' then
      if group.length < 2 then octetsAfter group missing r
      else if group.length + missing + 1 < 4 then octetsAfter group (missing + 1) r
      else some (groupOctets group)
    else match sextet? c with
      | none => octetsAfter group missing r
      | some n =>
        if group.length = 3 then (octetsAfter [] 0 r).map (groupOctets (group ++ [n]) ++ ·)
        else octetsAfter (group ++ [n]) 0 r

def octets (t : Text) : Except Fault Octets :=
  if t.any fun c => 128 ≤ c.toNat then .error .malformed
  else match octetsAfter [] 0 t with
    | some bs => .ok bs
    | none => .error .malformed

end EntityScaffold.Yaml
