import Letterhead.Number.Shortest
import Letterhead.Template.Spec

/-!
Writing a value in a format.

A number is a sign, a base mark, digits and a rest that is not grouped. Grouping counts from the
right. Filling with zeros behind the sign counts as digits, so it is grouped too and never starts
with a separator.
-/

namespace Letterhead.Template

open Number

/-- Nothing, if there is memory for a field of such a width. -/
def checkRoom (room : Nat) (width : Option Nat) : Except Fault Unit :=
  if width.any (room < ·) then .error .noMemory else .ok ()

/-- Fills a body to the width. -/
def fillTo (spec : Spec) (before body behind : Text) : Text :=
  let room := spec.width.getD 0 - (before.length + body.length + behind.length)
  let filling (n : Nat) := List.replicate n spec.fill
  match spec.align with
  | .left => before ++ body ++ behind ++ filling room
  | .right => filling room ++ before ++ body ++ behind
  | .centre => filling (room / 2) ++ before ++ body ++ behind ++ filling (room - room / 2)
  | .behindSign => before ++ filling room ++ body ++ behind

def formatText (room : Nat) (spec : Spec) (t : Text) : Except Fault Text := do
  if let some s := spec.sign then
    throw (.malformed (if s = .space then .spaceOnText else .signOnText))
  if spec.noNegativeZero then throw (.malformed .zeroOnText)
  if spec.alternate then throw (.malformed .alternateOnText)
  if spec.align = .behindSign then throw (.malformed .alignOnText)
  checkRoom room spec.width
  let t := match spec.precision with
    | some n => t.take n
    | none => t
  return fillTo spec [] t []

/-- Separators between groups, over digits whose last one comes first. -/
def groupBack (size : Nat) (separator : Char) : (count : Nat) → List Char → List Char
  | _, [] => []
  | count, d :: ds =>
    if count = size then separator :: d :: groupBack size separator 1 ds
    else d :: groupBack size separator (count + 1) ds

/-- How many digits, at least `count`, reach a width when grouped. -/
def digitsToReach (size : Nat) (grouped : Bool) (count width : Nat) : Nat :=
  ((List.range (width + 1)).find? fun n =>
    count ≤ n && width ≤ n + (if grouped then (n - 1) / size else 0)).getD count

/-- A number laid out: zeros behind the sign become digits before the groups are made. -/
def layOut (room : Nat) (spec : Spec) (sign mark ds rest : List Char) (groupSize : Nat) :
    Except Fault Text := do
  checkRoom room spec.width
  let width :=
    if spec.fill.is '0' && spec.align = .behindSign then
      spec.width.getD 0 - (sign.length + mark.length + rest.length)
    else 0
  let body :=
    if ds.isEmpty then []
    else
      let count := digitsToReach groupSize spec.separator.isSome ds.length width
      let ds := List.replicate (count - ds.length) '0' ++ ds
      match spec.separator with
      | some s => (groupBack groupSize s 0 ds.reverse).reverse
      | none => ds
  return fillTo spec (Text.ofChars (sign ++ mark)) (Text.ofChars body) (Text.ofChars rest)

def signText (spec : Spec) (negative : Bool) : List Char :=
  if negative then ['-']
  else
    match spec.sign with
    | some .plus => ['+']
    | some .space => [' ']
    | _ => []

def upperAscii (cs : List Char) : List Char := cs.map Char.toUpper

/-- Decimals without the zeros at their end. -/
def trimDecimals (ds : List Char) : List Char :=
  (ds.reverse.dropWhile (· == '0')).reverse

/-- Digits, a point if something follows it or one is asked for, and the decimals. -/
def withPoint (always : Bool) (whole decimals : List Char) : List Char :=
  if decimals.isEmpty && !always then whole else whole ++ '.' :: decimals

inductive NumberForm where
  | fixed
  | scientific
  /-- The shorter of the two, as the magnitude says. -/
  | general
deriving DecidableEq

def scientificText (alternate : Bool) (places : Nat) (trim : Bool) (num den : Nat) : List Char :=
  let (ds, e) :=
    if num = 0 then (List.replicate (places + 1) '0', 0) else significant num den (places + 1)
  let decimals := if trim then trimDecimals (ds.drop 1) else ds.drop 1
  withPoint alternate (ds.take 1) decimals ++ Binary64.exponentText e

def fixedText (alternate : Bool) (places : Nat) (trim : Bool) (num den : Nat) : List Char :=
  let (whole, decimals) := fixed num den places
  withPoint alternate whole (if trim then trimDecimals decimals else decimals)

def decimalText (form : NumberForm) (alternate : Bool) (precision num den : Nat) : List Char :=
  match form with
  | .fixed => fixedText alternate precision false num den
  | .scientific => scientificText alternate precision false num den
  | .general =>
    let count := max precision 1
    let e := if num = 0 then 0 else (significant num den count).2
    if -4 ≤ e ∧ e < count then
      fixedText alternate ((count : Int) - 1 - e).toNat (!alternate) num den
    else scientificText alternate (count - 1) (!alternate) num den

/-- The largest precision of a decimal form. -/
def largestPrecision : Nat := 0x7FFFFFFF

def formatReal (room : Nat) (spec : Spec) (form : NumberForm) (upper percent : Bool)
    (x : Binary64) : Except Fault Text := do
  let precision := spec.precision.getD 6
  if precision > largestPrecision then throw (.malformed .precisionTooBig)
  checkRoom room precision
  let x := if percent then x.mul (.ofInt 100) else x
  let text := match x.ratio? with
    | some (num, den) => decimalText form spec.alternate precision num den
    | none => "inf".toList
  let text := if upper then upperAscii text else text
  let text := if percent then text ++ ['%'] else text
  layOut room spec (signText spec x.isNegative) [] (text.takeWhile Char.isDigit)
    (text.dropWhile Char.isDigit) 3

def formatChar (room : Nat) (spec : Spec) (i : Int) : Except Fault Text := do
  if spec.sign.isSome then throw (.malformed .signOnChar)
  if spec.alternate then throw (.malformed .alternateOnChar)
  if i < 0 ∨ 0x110000 ≤ i then throw .overflow
  checkRoom room spec.width
  return fillTo spec [] [] [⟨i.toNat⟩]

/-- The base of a whole number's form, its mark and the size of its groups. -/
def baseOf? (c : CodePoint) : Option (Nat × List Char × Nat) :=
  if c.is 'd' || c.is 'n' then some (10, [], 3)
  else if c.is 'b' then some (2, ['0', 'b'], 4)
  else if c.is 'o' then some (8, ['0', 'o'], 4)
  else if c.is 'x' then some (16, ['0', 'x'], 4)
  else if c.is 'X' then some (16, ['0', 'X'], 4)
  else none

/-- The form that a code stands for, whether in capitals, and whether in hundredths. -/
def formOf? (c : CodePoint) : Option (NumberForm × Bool × Bool) :=
  if c.is 'e' then some (.scientific, false, false)
  else if c.is 'E' then some (.scientific, true, false)
  else if c.is 'f' then some (.fixed, false, false)
  else if c.is 'F' then some (.fixed, true, false)
  else if c.is 'g' then some (.general, false, false)
  else if c.is 'G' then some (.general, true, false)
  else if c.is '%' then some (.fixed, false, true)
  else none

def formatInt (room : Nat) (kind : Kind) (spec : Spec) (i : Int) : Except Fault Text := do
  let code := spec.code.getD 'd'
  let whole := code.is 'c' || (baseOf? code).isSome
  if whole && spec.precision.isSome then throw (.malformed .precisionOnInt)
  if whole && spec.noNegativeZero then throw (.malformed .zeroOnInt)
  if code.is 'c' then formatChar room spec i
  else if let some (base, mark, size) := baseOf? code then
    let ds := Nat.toDigits base i.natAbs
    let ds := if code.is 'X' then upperAscii ds else ds
    layOut room spec (signText spec (i < 0)) (if spec.alternate then mark else []) ds [] size
  else if let some (form, upper, percent) := formOf? code then
    match Binary64.ofInt i with
    | .finite s m e => formatReal room spec form upper percent (.finite s m e)
    | _ => throw .overflow
  else throw (.malformed (.unknownCode code kind))

/-- The text of a value in a format; an empty format is the plain text. -/
def format (room : Nat) (v : Value) (spec : Text) : Except Fault Text :=
  if spec.isEmpty then .ok v.plain
  else
    let number (i : Int) := do
      formatInt room v.kindOf (← (Spec.ofText v.kindOf spec).mapError .malformed) i
    match v with
    | .text t => do
      let s ← (Spec.ofText .text spec).mapError .malformed
      match s.code with
      | none => formatText room s t
      | some c =>
        if c.is 's' then formatText room s t
        else throw (.malformed (.unknownCode c .text))
    | .int i => number i
    | .bool b => number (if b then 1 else 0)
    | _ => .error .unsupported

end Letterhead.Template
