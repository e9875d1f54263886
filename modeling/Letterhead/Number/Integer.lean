import Letterhead.Text.Blank
import Letterhead.Text.Digit

/-!
Reading whole numbers.

A number may be padded with white space and have a sign. Digits of all scripts count, and a single
underscore may stand between two of them.
-/

namespace Letterhead.Number

/-- How many digits a decimal number may have. -/
def digitLimit : Nat := 4300

/-- The value of a digit, where letters go on behind nine. -/
def digitIn? (base : Nat) (c : CodePoint) : Option Nat :=
  let n :=
    if c.within 97 122 then some (c.val - 87)
    else if c.within 65 90 then some (c.val - 55)
    else c.digitValue?
  n.filter (· < base)

/-- The digits of a number, with single underscores between them. -/
def digitsIn? (base : Nat) (t : Text) : Option (List Nat) :=
  let parts := Text.cutAt '_' t
  if parts.any List.isEmpty then none else parts.flatten.mapM (digitIn? base)

/-- The letter that follows a zero to mark a base. -/
def baseLetter? (base : Nat) : Option Char :=
  if base = 2 then some 'b' else if base = 8 then some 'o' else if base = 16 then some 'x' else none

/-- The text behind the mark of the base; an underscore may follow the mark. -/
def dropBaseMark (base : Nat) (t : Text) : Text :=
  match baseLetter? base, t with
  | some letter, zero :: c :: rest =>
    if zero.digitValue? = some 0 && (c.is letter || c.is letter.toUpper) then
      match rest with
      | d :: more => if d.is '_' then more else rest
      | [] => rest
    else t
  | _, t => t

def readNat? (base : Nat) (t : Text) : Option Nat := do
  let ds ← digitsIn? base (dropBaseMark base t)
  if base = 10 ∧ digitLimit < ds.length then none
  else some (ds.foldl (fun n d => base * n + d) 0)

/-- The text behind a sign, and whether the sign is a minus. -/
def takeSign (t : Text) : Bool × Text :=
  match t with
  | c :: rest =>
    if c.is '-' then (true, rest) else if c.is '+' then (false, rest) else (false, t)
  | [] => (false, t)

def readInt? (base : Nat) (t : Text) : Option Int :=
  let (negative, t) := takeSign (Text.trimPadding t)
  (readNat? base t).map fun n => if negative then -(n : Int) else n

end Letterhead.Number
