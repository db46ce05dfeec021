/-!
# Base64

`base64Bytes?` reads bytes in groups of four characters, six bits each. Characters outside the alphabet are
passed over; a group may end early where padding fills it up, and what follows is not read.
-/

namespace ApiManual.Text

def base64Value? (c : Char) : Option Nat :=
  if 'A' ≤ c ∧ c ≤ 'Z' then some (c.toNat - 65)
  else if 'a' ≤ c ∧ c ≤ 'z' then some (c.toNat - 71)
  else if '0' ≤ c ∧ c ≤ '9' then some (c.toNat + 4)
  else if c = '+' then some 62
  else if c = '/' then some 63
  else none

/-- A group that is being read: how many characters it has, the bits that no byte holds yet, and the padding
that came last. -/
structure Base64Group where
  count : Nat := 0
  bits : Nat := 0
  padding : Nat := 0

/-- Take a character of the alphabet; from the second one on it completes a byte. -/
def Base64Group.take (g : Base64Group) (value : Nat) : Option UInt8 × Base64Group :=
  match g.count with
  | 0 => (none, { count := 1, bits := value })
  | 1 => (some (UInt8.ofNat (4 * g.bits + value / 16)), { count := 2, bits := value % 16 })
  | 2 => (some (UInt8.ofNat (16 * g.bits + value / 4)), { count := 3, bits := value % 4 })
  | _ => (some (UInt8.ofNat (64 * g.bits + value)), {})

def base64From (g : Base64Group) : List Char → Option (List UInt8)
  | [] => if g.count = 0 then some [] else none
  | c :: cs =>
    if c = '=' then
      if g.count < 2 then base64From g cs
      else if g.count + g.padding + 1 ≥ 4 then some []
      else base64From { g with padding := g.padding + 1 } cs
    else match base64Value? c with
      | none => base64From g cs
      | some value =>
        let (byte, g) := g.take value
        (base64From g cs).map (byte.toList ++ ·)

def base64Bytes? (cs : List Char) : Option (List UInt8) := base64From {} cs

end ApiManual.Text
