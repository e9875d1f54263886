import Letterhead.Template.Fault
import Letterhead.Text.Digit

/-!
Formats: how wide a field is, how it is filled, and in which form a number is written.

A format is `[[fill]align][sign][z][#][0][width][separator][.precision][code]`.
-/

namespace Letterhead.Template

inductive Align where
  | left
  | right
  | centre
  /-- The filling stands between the sign and the digits. -/
  | behindSign
deriving DecidableEq

inductive Sign where
  | plus
  | minus
  | space
deriving DecidableEq

structure Spec where
  fill : CodePoint
  align : Align
  sign : Option Sign
  noNegativeZero : Bool
  alternate : Bool
  width : Option Nat
  separator : Option Char
  precision : Option Nat
  /-- The form, or nothing for that of the value's kind. -/
  code : Option CodePoint

namespace Spec

def alignOf? (c : CodePoint) : Option Align :=
  if c.is '<' then some .left
  else if c.is '>' then some .right
  else if c.is '^' then some .centre
  else if c.is '=' then some .behindSign
  else none

def signOf? (c : CodePoint) : Option Sign :=
  if c.is '+' then some .plus
  else if c.is '-' then some .minus
  else if c.is ' ' then some .space
  else none

/-- Reads what a function makes of the first character, if it makes anything of it. -/
def option? {α : Type} (f : CodePoint → Option α) : Text → Option α × Text
  | [] => (none, [])
  | c :: t =>
    match f c with
    | some a => (some a, t)
    | none => (none, c :: t)

def flag (ch : Char) (t : Text) : Bool × Text :=
  let (found, t) := option? (fun c => if c.is ch then some () else none) t
  (found.isSome, t)

/-- The largest count that a format or an index may hold. -/
def largest : Nat := 0x7FFFFFFFFFFFFFFF

/-- The number that decimal digits of any script spell, unless it is too large. -/
def decimal (ds : List Nat) : Except Malformed Nat :=
  let n := ds.foldl (fun n d => 10 * n + d) 0
  if n ≤ largest then .ok n else .error .tooManyDigits

/-- Reads a number, if there is one. -/
def number (t : Text) : Except Malformed (Option Nat × Text) := do
  let ds := t.takeWhile CodePoint.isDigit
  if ds.isEmpty then return (none, t)
  let n ← decimal (ds.filterMap CodePoint.digitValue?)
  return (some n, t.dropWhile CodePoint.isDigit)

def fillAndAlign (t : Text) : Option CodePoint × Option Align × Text :=
  match t with
  | c :: d :: rest =>
    match alignOf? d with
    | some a => (some c, some a, rest)
    | none =>
      let (a, t) := option? alignOf? t
      (none, a, t)
  | t =>
    let (a, t) := option? alignOf? t
    (none, a, t)

def separators (t : Text) : Except Malformed (Option Char × Text) := do
  let (comma, t) := flag ',' t
  let (under, t) := flag '_' t
  if comma && under then throw .twoSeparators
  if under && (flag ',' t).1 then throw .twoSeparators
  return (if comma then some ',' else if under then some '_' else none, t)

def precision? (t : Text) : Except Malformed (Option Nat × Text) := do
  let (point, t) := flag '.' t
  if point then
    let (n, t) ← number t
    if n.isNone then throw .noPrecision
    return (n, t)
  return (none, t)

/-- A separator goes with decimal forms; an underscore also with the other bases. -/
def separatorFits (separator : Char) (code : Option CodePoint) : Bool :=
  match code with
  | none => true
  | some c =>
    "defgEG%F".toList.any c.is || (separator == '_' && "boxX".toList.any c.is)

/-- Reads a format for a value of a kind, whose texts go to the left and whose numbers to the
right. -/
def ofText (kind : Kind) (spec : Text) : Except Malformed Spec := do
  let usual := if kind = .text then Align.left else .right
  let (fill, align, t) := fillAndAlign spec
  let (sign, t) := option? signOf? t
  let (noNegativeZero, t) := flag 'z' t
  let (alternate, t) := flag '#' t
  let (zero, t) := if fill.isNone then flag '0' t else (false, t)
  let (width, t) ← number t
  let (separator, t) ← separators t
  let (precision, t) ← precision? t
  let code ← match t with
    | [] => pure none
    | [c] => pure (some c)
    | _ => throw (Malformed.invalidSpec spec kind)
  if let some s := separator then
    -- without a code a text has the form `s`, with which no separator goes
    let form := if code.isNone ∧ kind = .text then some (CodePoint.ofChar 's') else code
    if !separatorFits s form then throw (.separatorWith s (form.getD 's'))
  return {
    fill := fill.getD (if zero then '0' else ' ')
    align := align.getD (if zero ∧ usual = .right then .behindSign else usual)
    sign, noNegativeZero, alternate, width, separator, precision, code }

end Spec

end Letterhead.Template
