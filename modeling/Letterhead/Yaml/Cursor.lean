import Letterhead.Text.Basic

/-!
A place in a document, and the classes of characters that structure one.

Line breaks are already one character each. A byte order mark takes no column.
-/

namespace Letterhead.Yaml

/-- Why a document has no value. -/
inductive Fault where
  /-- The document, or what its tags ask for, makes no sense. -/
  | malformed
  /-- A number or a date has a form or a size that none has. -/
  | badNumber
  /-- A number has no digits at all. -/
  | noDigits
  /-- A switch is none of the known words. -/
  | unknownWord
  /-- A time has no date in it. -/
  | noDate
  /-- A time is not given by a text. -/
  | timeNotText
  /-- A number is too large to be counted with. -/
  | tooLarge
  /-- A value stands for itself, or collections are nested too deeply. -/
  | endless
deriving DecidableEq

def isBreak (c : CodePoint) : Bool :=
  c.is '\n' || c.val == 0x85 || c.val == 0x2028 || c.val == 0x2029

def isSpace (c : CodePoint) : Bool := c.is ' '

def isSpaceOrTab (c : CodePoint) : Bool := c.is ' ' || c.is '\t'

def isSpaceOrBreak (c : CodePoint) : Bool := isSpace c || isBreak c

def isGap (c : CodePoint) : Bool := isSpaceOrTab c || isBreak c

/-- The characters of names: letters, digits, hyphens and underscores of ASCII. -/
def isNameChar (c : CodePoint) : Bool :=
  c.within 48 57 || c.within 65 90 || c.within 97 122 || c.is '-' || c.is '_'

def isOneOf (marks : String) (c : CodePoint) : Bool := marks.toList.any (c.is ·)

/-- A document may hold no other characters. -/
def isAllowed (c : CodePoint) : Bool :=
  c.val == 0x09 || c.val == 0x0A || c.val == 0x0D || c.within 0x20 0x7E || c.val == 0x85 ||
    c.within 0xA0 0xD7FF || c.within 0xE000 0xFFFD || c.within 0x10000 0x10FFFF

/-- Nothing follows, or a character of the class. -/
def endOr (p : CodePoint → Bool) : Option CodePoint → Bool
  | none => true
  | some c => p c

structure Cursor where
  rest : Text
  /-- How many characters lie before. -/
  index : Nat
  line : Nat
  column : Nat

namespace Cursor

def start (t : Text) : Cursor := ⟨t, 0, 0, 0⟩

def peek (c : Cursor) : Option CodePoint := c.rest.head?

/-- The character some places further on. -/
def look (c : Cursor) (n : Nat) : Option CodePoint := c.rest[n]?

def isAt (c : Cursor) (ch : Char) : Bool := c.peek.any (·.is ch)

def next (c : Cursor) : Cursor :=
  match c.rest with
  | [] => c
  | x :: rest =>
    if isBreak x then ⟨rest, c.index + 1, c.line + 1, 0⟩
    else ⟨rest, c.index + 1, c.line, if x.val = 0xFEFF then c.column else c.column + 1⟩

def skip : Nat → Cursor → Cursor
  | 0, c => c
  | n + 1, c => skip n c.next

/-- The longest run of characters of a class, and the place behind it. -/
def span (p : CodePoint → Bool) (c : Cursor) : Text × Cursor :=
  let run := c.rest.takeWhile p
  (run, skip run.length c)

def skipWhile (p : CodePoint → Bool) (c : Cursor) : Cursor := (c.span p).2

/-- The rest of the line. -/
def restOfLine (c : Cursor) : Text × Cursor := c.span (!isBreak ·)

def skipComment (c : Cursor) : Cursor := if c.isAt '#' then c.restOfLine.2 else c

/-- The line break here, as it counts within text, and the place behind it. -/
def lineBreak? (c : Cursor) : Option (CodePoint × Cursor) :=
  match c.peek with
  | some x =>
    if isBreak x then
      some (if x.is '\n' || x.val == 0x85 then CodePoint.ofChar '\n' else x, c.next)
    else none
  | none => none

def skipBreak (c : Cursor) : Cursor :=
  match c.lineBreak? with
  | some (_, c) => c
  | none => c

/-- Goes to the next line; nothing but a comment may stand before it. -/
def endLine (c : Cursor) : Except Fault Cursor :=
  let c := (c.skipWhile isSpace).skipComment
  if endOr isBreak c.peek then .ok c.skipBreak else .error .malformed

/-- A mark of three characters stands alone here. -/
def atMark (mark : String) (c : Cursor) : Bool :=
  c.rest.take 3 == Text.ofString mark && endOr isGap (c.look 3)

/-- A document ends or a new one begins here, if this is the first column. -/
def atSeparator (c : Cursor) : Bool := c.atMark "---" || c.atMark "..."

end Cursor

end Letterhead.Yaml
