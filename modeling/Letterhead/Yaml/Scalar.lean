import Letterhead.Number.Decimal
import Letterhead.Number.Integer
import Letterhead.Settings.Datum
import Letterhead.Text.Case
import Letterhead.Yaml.Binary
import Letterhead.Yaml.Cursor
import Letterhead.Yaml.Moment
import Letterhead.Yaml.Tag

/-!
The values of scalars.
-/

namespace Letterhead.Yaml

open Number (Binary64)

/-- Underscores in numbers have no meaning. -/
def withoutUnderscores (t : Text) : Text := t.filter (!·.is '_')

def signed (negative : Bool) (i : Int) : Int := if negative then -i else i

def readInt (base : Nat) (t : Text) : Except Fault Int :=
  match Number.readInt? base t with
  | some i => .ok i
  | none => .error .badNumber

/-- Numbers to the base 60, the largest part first. -/
def readSixties (t : Text) : Except Fault Int := do
  let parts ← (Text.cutAt ':' t).mapM (readInt 10)
  return parts.foldl (fun n part => 60 * n + part) 0

def intValue (t : Text) : Except Fault Int := do
  let t := withoutUnderscores t
  if t.isEmpty then throw .noDigits
  let (negative, t) := Number.takeSign t
  let n ←
    if t == Text.ofString "0" then pure 0
    else if t.startsWith "0b" then readInt 2 (t.drop 2)
    else if t.startsWith "0x" then readInt 16 (t.drop 2)
    else
      match t with
      | [] => throw .noDigits
      | c :: _ =>
        if c.is '0' then readInt 8 t
        else if t.any (·.is ':') then readSixties t
        else readInt 10 t
  return signed negative n

/-- Digits of all scripts as those of ASCII. -/
def asciiDigits (t : Text) : List Char :=
  t.map fun c =>
    match c.digitValue? with
    | some d => Char.ofNat (48 + d)
    | none => c.toChar?.getD '\uFFFD'

/-- A floating-point number: a decimal one, infinity, or none. -/
def readFloat (t : Text) : Except Fault Binary64 :=
  let t := Text.trimPadding t
  let (negative, word) := Number.takeSign t
  if word == Text.ofString "inf" || word == Text.ofString "infinity" then .ok (.infinite negative)
  else if word == Text.ofString "nan" then .ok .nan
  else
    match Binary64.ofText? (asciiDigits t) with
    | some x => .ok x
    | none => .error .badNumber

/-- Adds up parts to the base 60, the smallest first. -/
def sumSixties : (place : Nat) → (sum : Binary64) → List Binary64 → Except Fault Binary64
  | _, sum, [] => .ok sum
  | place, sum, x :: rest =>
    match Binary64.ofInt (Nat.pow 60 place) with
    | .finite n m e => sumSixties (place + 1) (sum.add (x.mul (.finite n m e))) rest
    | _ => .error .tooLarge

def floatValue (t : Text) : Except Fault Binary64 := do
  let t := (withoutUnderscores t).map CodePoint.lowerAscii
  if t.isEmpty then throw .noDigits
  let (negative, t) := Number.takeSign t
  let x ←
    if t == Text.ofString ".inf" then pure (.infinite false)
    else if t == Text.ofString ".nan" then pure .nan
    else if t.any (·.is ':') then
      let parts ← (Text.cutAt ':' t).mapM readFloat
      sumSixties 0 .zero parts.reverse
    else readFloat t
  return if negative then x.neg else x

def boolValue (t : Text) : Except Fault Bool :=
  let low := t.map CodePoint.lowerAscii
  if ["yes", "true", "on"].any (low == Text.ofString ·) then .ok true
  else if ["no", "false", "off"].any (low == Text.ofString ·) then .ok false
  else .error .unknownWord

def momentValue (t : Text) : Except Fault Moment :=
  match Moment.read? t with
  | some m => if m.isValid then .ok m else .error .badNumber
  | none => .error .noDate

/-- The value of a scalar. -/
def scalarValue (tag : Tag) (t : Text) : Except Fault Datum :=
  match tag with
  | .null => .ok .null
  | .bool => (boolValue t).map .bool
  | .int => (intValue t).map .int
  | .float => (floatValue t).map .float
  | .timestamp => (momentValue t).map fun m => .moment m.shown
  | .binary =>
    match Binary.decode? t with
    | some bs => .ok (.bytes bs)
    | none => .error .malformed
  | .text => .ok (.text t)
  | _ => .error .malformed

end Letterhead.Yaml
