import Letterhead.Number.Rounding

/-!
Binary floating-point numbers of 64 bits.

A finite number is a whole number times a power of two, so that every question about it is one
about whole numbers. Reading a quotient rounds to 53 significant bits, a half to the even one.
-/

namespace Letterhead.Number

inductive Binary64 where
  | nan
  | infinite (negative : Bool)
  | finite (negative : Bool) (mant : Nat) (exp : Int)
deriving DecidableEq

namespace Binary64

def zero : Binary64 := finite false 0 0

/-- The least number that has more than 53 bits. -/
def mantLimit : Nat := 0x20000000000000

/-- Nearest number to a quotient. -/
def ofRatio (negative : Bool) (num den : Nat) : Binary64 :=
  if num = 0 then finite negative 0 0
  else
    let guess : Int := (Nat.log2 num : Int) - Nat.log2 den
    let low := max (guess - 53) (-1074)
    let scaled (e : Int) : Nat × Nat :=
      if 0 ≤ e then (num, den * Nat.pow 2 e.toNat) else (num * Nat.pow 2 (-e).toNat, den)
    let exp := if (scaled low).1 / (scaled low).2 ≥ mantLimit then low + 1 else low
    let mant := roundDiv (scaled exp).1 (scaled exp).2
    let (mant, exp) := if mant = mantLimit then (mantLimit / 2, exp + 1) else (mant, exp)
    if exp > 971 then infinite negative else finite negative mant exp

def ofInt (i : Int) : Binary64 := ofRatio (i < 0) i.natAbs 1

/-- Nearest number to `mant * 10 ^ exp`. -/
def ofDecimal (negative : Bool) (mant : Nat) (exp : Int) : Binary64 :=
  if mant = 0 then finite negative 0 0
  else
    let size := (digits mant).length + exp
    if size > 400 then infinite negative
    else if size < -400 then finite negative 0 0
    else if 0 ≤ exp then ofRatio negative (mant * Nat.pow 10 exp.toNat) 1
    else ofRatio negative mant (Nat.pow 10 (-exp).toNat)

def isNegative : Binary64 → Bool
  | nan => false
  | infinite negative => negative
  | finite negative _ _ => negative

/-- The absolute value as a quotient, for a finite number. -/
def ratio? : Binary64 → Option (Nat × Nat)
  | finite _ mant exp =>
    some (if 0 ≤ exp then (mant * Nat.pow 2 exp.toNat, 1) else (mant, Nat.pow 2 (-exp).toNat))
  | _ => none

/-- The whole number that this number is. -/
def toInt? (x : Binary64) : Option Int := do
  let (num, den) ← x.ratio?
  if num % den = 0 then
    let n : Int := (num / den : Nat)
    some (if x.isNegative then -n else n)
  else none

def isZero : Binary64 → Bool
  | finite _ mant _ => mant == 0
  | _ => false

def neg : Binary64 → Binary64
  | nan => nan
  | infinite s => infinite !s
  | finite s m e => finite (!s) m e

/-- The exact value as a signed numerator over a denominator. -/
def signed (x : Binary64) (num : Nat) : Int := if x.isNegative then -(num : Int) else num

def add (x y : Binary64) : Binary64 :=
  match x.ratio?, y.ratio? with
  | some (a, b), some (c, d) =>
    let num := x.signed a * d + y.signed c * b
    if num = 0 then finite (x.isNegative && y.isNegative) 0 0
    else ofRatio (num < 0) num.natAbs (b * d)
  | some _, none => y
  | none, some _ => x
  | none, none => if x = y then x else nan

def mul (x y : Binary64) : Binary64 :=
  match x, y with
  | nan, _ => nan
  | _, nan => nan
  | infinite s, y => if y.isZero then nan else infinite (s != y.isNegative)
  | x, infinite s => if x.isZero then nan else infinite (s != x.isNegative)
  | finite s m e, finite s' m' e' =>
    let exp := e + e'
    if 0 ≤ exp then ofRatio (s != s') (m * m' * Nat.pow 2 exp.toNat) 1
    else ofRatio (s != s') (m * m') (Nat.pow 2 (-exp).toNat)

end Binary64

end Letterhead.Number
