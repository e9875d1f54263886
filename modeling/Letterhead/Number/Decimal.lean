import Letterhead.Number.Binary64

/-!
Reading decimal text as a floating-point number.
-/

namespace Letterhead.Number.Binary64

def decimalValue (ds : List Char) : Nat := ds.foldl (fun n d => 10 * n + (d.toNat - 48)) 0

/-- The exponent behind an `e`, which needs a digit. -/
def readExponent (cs : List Char) : Option Int :=
  match cs with
  | [] => some 0
  | c :: rest =>
    if c = 'e' ∨ c = 'E' then
      let (negative, ds) := match rest with
        | '-' :: ds => (true, ds)
        | '+' :: ds => (false, ds)
        | ds => (false, ds)
      if ds.isEmpty || !ds.all Char.isDigit then none
      else some (if negative then -(decimalValue ds : Int) else decimalValue ds)
    else none

/-- Reads digits, a point among them or not, and an exponent. -/
def ofUnsigned? (negative : Bool) (cs : List Char) : Option Binary64 :=
  let whole := cs.takeWhile Char.isDigit
  let rest := cs.dropWhile Char.isDigit
  let (places, rest) := match rest with
    | '.' :: rest => (rest.takeWhile Char.isDigit, rest.dropWhile Char.isDigit)
    | rest => ([], rest)
  if whole.isEmpty ∧ places.isEmpty then none
  else
    (readExponent rest).map fun e =>
      ofDecimal negative (decimalValue (whole ++ places)) (e - places.length)

/-- Reads a number with a sign or without. -/
def ofText? (cs : List Char) : Option Binary64 :=
  match cs with
  | '-' :: rest => ofUnsigned? true rest
  | '+' :: rest => ofUnsigned? false rest
  | cs => ofUnsigned? false cs

end Letterhead.Number.Binary64
