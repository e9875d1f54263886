import Letterhead.Text.Utf8

/-!
Bytes written in base 64: four characters of six bits each for three bytes.
-/

namespace Letterhead.Yaml.Binary

/-- The six bits that a character stands for. -/
def sextet? (c : CodePoint) : Option Nat :=
  if c.within 65 90 then some (c.val - 65)
  else if c.within 97 122 then some (c.val - 71)
  else if c.within 48 57 then some (c.val + 4)
  else if c.is '+' then some 62
  else if c.is '/' then some 63
  else none

/-- Reads on behind `count` characters of a group, whose last one left some bits over; `pads` is how
many equals signs came since. Other characters are skipped, and a group may be cut off by as many
equals signs as it lacks characters. -/
def decodeFrom? (count left pads : Nat) : Text → Option Bytes
  | [] => if count = 0 then some [] else none
  | c :: rest =>
    if c.is '=' then
      if 2 ≤ count && 4 ≤ count + pads + 1 then some []
      else decodeFrom? count left (if 2 ≤ count then pads + 1 else pads) rest
    else
      match sextet? c with
      | none => decodeFrom? count left pads rest
      | some n =>
        match count with
        | 0 => decodeFrom? 1 n 0 rest
        | 1 => (decodeFrom? 2 (n % 16) 0 rest).map (UInt8.ofNat (left * 4 + n / 16) :: ·)
        | 2 => (decodeFrom? 3 (n % 4) 0 rest).map (UInt8.ofNat (left * 16 + n / 4) :: ·)
        | _ => (decodeFrom? 0 0 0 rest).map (UInt8.ofNat (left * 64 + n) :: ·)

/-- The bytes of a text, which has to be ASCII. -/
def decode? (t : Text) : Option Bytes :=
  if t.all (·.val < 128) then decodeFrom? 0 0 0 t else none

end Letterhead.Yaml.Binary
