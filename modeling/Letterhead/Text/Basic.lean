/-!
Text as a list of code points.

A file need not be well-formed UTF-8. A byte that belongs to no well-formed sequence is carried
as the surrogate `0xDC00 + byte`, so that text can hold any file and give its bytes back.
-/

namespace Letterhead

/-- A code point; unlike `Char` it may be a surrogate. -/
structure CodePoint where
  val : Nat
deriving DecidableEq, Inhabited

namespace CodePoint

def ofChar (c : Char) : CodePoint := ⟨c.toNat⟩

instance : Coe Char CodePoint := ⟨ofChar⟩

def is (c : CodePoint) (ch : Char) : Bool := c.val == ch.toNat

/-- The code point lies between the two bounds, both included. -/
def within (c : CodePoint) (lo hi : Nat) : Bool := lo ≤ c.val && c.val ≤ hi

def isSurrogate (c : CodePoint) : Bool := c.within 0xD800 0xDFFF

/-- The code point stands for a byte that was no part of a well-formed sequence. -/
def isStray (c : CodePoint) : Bool := c.within 0xDC80 0xDCFF

/-- The character, unless the code point is a surrogate. -/
def toChar? (c : CodePoint) : Option Char :=
  if h : c.val.isValidChar then some (Char.ofNatAux c.val h) else none

end CodePoint

/-- A name ends with a suffix. -/
def endsIn (name suffix : String) : Bool := suffix.toList.isSuffixOf name.toList

abbrev Text := List CodePoint

namespace Text

def ofChars (cs : List Char) : Text := cs.map CodePoint.ofChar

def ofString (s : String) : Text := ofChars s.toList

instance : Coe String Text := ⟨ofString⟩

/-- The characters, unless a surrogate is among them. -/
def toChars? (t : Text) : Option (List Char) := t.mapM CodePoint.toChar?

def toString? (t : Text) : Option String := t.toChars?.map String.ofList

/-- The text with U+FFFD in the place of every surrogate. -/
def toStringLossy (t : Text) : String :=
  String.ofList (t.map fun c => c.toChar?.getD '\uFFFD')

def startsWith (t head : Text) : Bool := head.isPrefixOf t

def endsWith (t tail : Text) : Bool := tail.isSuffixOf t

/-- The part occurs somewhere in the text. -/
def hasPart (part : Text) : Text → Bool
  | [] => part.isEmpty
  | c :: t => part.isPrefixOf (c :: t) || hasPart part t

/-- The rest of the text behind a given head. -/
def dropHead? : Text → Text → Option Text
  | [], t => some t
  | _ :: _, [] => none
  | c :: head, d :: t => if c = d then dropHead? head t else none

/-- The text before a given tail. -/
def dropTail? (tail t : Text) : Option Text :=
  (dropHead? tail.reverse t.reverse).map List.reverse

/-- The parts between the marks, in order. -/
def cutAt (mark : CodePoint) : Text → List Text
  | [] => [[]]
  | c :: t =>
    if c = mark then [] :: cutAt mark t
    else
      match cutAt mark t with
      | [] => [[c]]
      | part :: parts => (c :: part) :: parts

/-- The parts with the mark between each two. -/
def joinWith (mark : CodePoint) : List Text → Text
  | [] => []
  | [part] => part
  | part :: parts => part ++ mark :: joinWith mark parts

end Text

end Letterhead
