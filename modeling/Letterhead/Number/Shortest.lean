import Letterhead.Number.Binary64

/-!
The shortest decimal text of a floating-point number.

Of all decimals that read back as the number, those with the fewest digits are taken, and of
these the nearest to it.
-/

namespace Letterhead.Number.Binary64

/-- A decimal of `count` digits that reads back as the number: of the two neighbours of the value
on that grid the nearer one that does. -/
def readsBackIn (num den : Nat) (x : Binary64) (count : Nat) : Option (Nat × Int) :=
  let exp := magnitude num den - ((count : Int) - 1)
  let (n, d) :=
    if 0 ≤ exp then (num, den * Nat.pow 10 exp.toNat)
    else (num * Nat.pow 10 (-exp).toNat, den)
  let near := roundDiv n d
  let far := if near * d ≤ n then near + 1 else near - 1
  if ofDecimal x.isNegative near exp = x then some (near, exp)
  else if ofDecimal x.isNegative far exp = x then some (far, exp)
  else none

/-- Trailing zeros move from the digits into the exponent. -/
def trimZeros (n : Nat) (exp : Int) : List Char × Int :=
  let ds := (digits n).reverse
  let zeros := (ds.takeWhile (· == '0')).length
  ((ds.drop zeros).reverse, exp + zeros)

/-- The shortest digits, and the power of ten of the first of them. -/
def shortest (num den : Nat) (x : Binary64) : List Char × Int :=
  let found := (List.range 17).findSome? fun k => readsBackIn num den x (k + 1)
  let (n, exp) := found.getD (0, 0)
  let (ds, exp) := trimZeros n exp
  (ds, exp + ds.length - 1)

def exponentText (e : Int) : List Char :=
  'e' :: (if e < 0 then '-' else '+') :: padded 2 e.natAbs

/-- The digits with a point behind the one that stands for units. -/
def positional (ds : List Char) (e : Int) : List Char :=
  if e < 0 then '0' :: '.' :: List.replicate ((-e).toNat - 1) '0' ++ ds
  else
    let whole := e.toNat + 1
    if ds.length ≤ whole then ds ++ List.replicate (whole - ds.length) '0' ++ ['.', '0']
    else ds.take whole ++ '.' :: ds.drop whole

/-- Positional from `1e-4` up to `1e16`, with an exponent beyond. -/
def text (x : Binary64) : List Char :=
  let sign := if x.isNegative then ['-'] else []
  match x with
  | nan => "nan".toList
  | infinite _ => sign ++ "inf".toList
  | finite _ 0 _ => sign ++ "0.0".toList
  | finite .. =>
    let (num, den) := x.ratio?.getD (0, 1)
    let (ds, e) := shortest num den x
    sign ++
      if -4 ≤ e ∧ e < 16 then positional ds e
      else
        match ds with
        | [] => []
        | [d] => d :: exponentText e
        | d :: rest => d :: '.' :: rest ++ exponentText e

end Letterhead.Number.Binary64
