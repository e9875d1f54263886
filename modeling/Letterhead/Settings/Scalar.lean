import Letterhead.Number.Integer
import Letterhead.Settings.Datum
import Letterhead.Settings.Problem
import Letterhead.Text.Case

/-!
Reading single values of a configuration, with some latitude: a number may be given as a text and
a switch as a number or a word.
-/

namespace Letterhead.Settings

open Checked (problem)

def checkText : Datum → Checked String
  | .text t =>
    match t.toString? with
    | some s => .valid s
    | none => problem .stringUnicode
  | .bytes bs =>
    match (Utf8.decode? bs).bind Text.toString? with
    | some s => .valid s
    | none => problem .stringUnicode
  | _ => problem .stringType

def asciiDigit? (c : CodePoint) : Option Nat := if c.within 48 57 then some (c.val - 48) else none

/-- The digits of a number, with single underscores between them. -/
def plainDigits? (t : Text) : Option (List Nat) :=
  let parts := Text.cutAt '_' t
  if parts.any List.isEmpty then none else parts.flatten.mapM asciiDigit?

/-- The part before a point behind which there are only zeros. -/
def dropZeroPlaces (t : Text) : Text :=
  let whole := t.takeWhile (!·.is '.')
  match t.dropWhile (!·.is '.') with
  | _ :: places => if places.all (·.is '0') then whole else t
  | [] => t

/-- Reads a whole number: a sign, digits, and a point with zeros. -/
def readInt (t : Text) : Checked Int :=
  let (negative, t) := Number.takeSign (Text.trimPadding t)
  match plainDigits? (dropZeroPlaces t) with
  | none => problem .intParsing
  | some ds =>
    let significant := ds.dropWhile (· = 0)
    if negative ∧ 1 < ds.length ∧ significant.length < ds.length then problem .intParsing
    else if Number.digitLimit < significant.length then problem .intParsingSize
    else
      let n : Nat := significant.foldl (fun n d => 10 * n + d) 0
      .valid (if negative then -(n : Int) else n)

/-- The whole number that a floating-point number is, if it fits into 64 bits. -/
def intOfFloat (x : Number.Binary64) : Checked Int :=
  match x with
  | .finite .. =>
    match x.toInt? with
    | none => problem .intFromFloat
    | some i => if i.natAbs < 0x8000000000000000 then .valid i else problem .intParsingSize
  | _ => problem .finiteNumber

def checkInt : Datum → Checked Int
  | .int i => .valid i
  | .bool b => .valid (if b then 1 else 0)
  | .float x => intOfFloat x
  | .text t => if t.toString?.isSome then readInt t else problem .stringUnicode
  | .bytes bs =>
    match Utf8.decode? bs with
    | some t => readInt t
    | none => problem .intParsing
  | _ => problem .intType

def checkNat (d : Datum) : Checked Nat :=
  (checkInt d).bind fun i => if 0 ≤ i then .valid i.toNat else problem .greaterThanEqual

def trueWords : List String := ["1", "t", "y", "on", "yes", "true"]

def falseWords : List String := ["0", "f", "n", "no", "off", "false"]

def readBool (t : Text) : Checked Bool :=
  let low := t.map CodePoint.lowerAscii
  if falseWords.any (low == Text.ofString ·) then .valid false
  else if trueWords.any (low == Text.ofString ·) then .valid true
  else problem .boolParsing

def boolOfInt (i : Int) : Checked Bool :=
  if i = 0 then .valid false else if i = 1 then .valid true else problem .boolParsing

def checkBool : Datum → Checked Bool
  | .bool b => .valid b
  | .int i => boolOfInt i
  | .float x =>
    match intOfFloat x with
    | .valid i => boolOfInt i
    | .invalid _ => problem .boolType
  | .text t => if t.toString?.isSome then readBool t else problem .stringUnicode
  | .bytes bs =>
    match Utf8.decode? bs with
    | some t => readBool t
    | none => problem .boolParsing
  | _ => problem .boolType

end Letterhead.Settings
