/-!
Rounding a quotient, and the decimal digits of a rounded quotient.

A half always goes to the even neighbour.
-/

namespace Letterhead.Number

/-- The whole number nearest to a quotient. -/
def roundDiv (num den : Nat) : Nat :=
  let q := num / den
  let r := num % den
  if 2 * r < den then q
  else if 2 * r > den then q + 1
  else q + q % 2

def digits (n : Nat) : List Char := Nat.toDigits 10 n

/-- The digits with zeros in front, at least `width` of them. -/
def padded (width n : Nat) : List Char :=
  let ds := digits n
  List.replicate (width - ds.length) '0' ++ ds

def intText (i : Int) : List Char :=
  if i < 0 then '-' :: digits i.natAbs else digits i.natAbs

/-- A quotient with a given number of decimal places, as whole and fractional digits. -/
def fixed (num den places : Nat) : List Char × List Char :=
  let n := roundDiv (num * Nat.pow 10 places) den
  (digits (n / Nat.pow 10 places),
    if places = 0 then [] else padded places (n % Nat.pow 10 places))

/-- The power of ten at or below a positive quotient: `10 ^ e ≤ num / den < 10 ^ (e + 1)`. -/
def magnitude (num den : Nat) : Int :=
  let whole := num / den
  if whole > 0 then (digits whole).length - 1
  else
    -- the inverse lies between `10 ^ (k - 1)` and `10 ^ k`, where `k` is its number of digits
    let k := (digits (den / num)).length
    if num * Nat.pow 10 (k - 1) = den then -((k : Int) - 1) else -(k : Int)

/-- A positive quotient in `count` significant digits: the digits and the power of ten of the
first of them. -/
def significant (num den count : Nat) : List Char × Int :=
  let e := magnitude num den
  let shift := (count : Int) - 1 - e
  let m :=
    if 0 ≤ shift then roundDiv (num * Nat.pow 10 shift.toNat) den
    else roundDiv num (den * Nat.pow 10 (-shift).toNat)
  let ds := digits m
  -- rounding up may give one digit more, which is a zero
  if ds.length > count then (ds.take count, e + 1) else (ds, e)

end Letterhead.Number
