import Letterhead.Yaml.Token

/-!
Reading block scalars, literal and folded.
-/

namespace Letterhead.Yaml

/-- What becomes of the line breaks at the end. -/
inductive Chomping where
  | strip
  | clip
  | keep
deriving DecidableEq

structure BlockHead where
  chomping : Chomping
  /-- How far the text is indented, if that is given. -/
  increment : Option Nat

def chomping? (c : CodePoint) : Option Chomping :=
  if c.is '+' then some .keep else if c.is '-' then some .strip else none

/-- The digit of an indentation, which is not zero. -/
def increment? (c : CodePoint) : Option Nat := if c.within 49 57 then some (c.val - 48) else none

/-- Reads the marks behind the opening one, in either order. -/
def scanBlockHead (c : Cursor) : Except Fault (BlockHead × Cursor) :=
  let (chomp, c) := match c.peek.bind chomping? with
    | some m => (some m, c.next)
    | none => (none, c)
  let (increment, c) := match c.peek.bind increment? with
    | some n => (some n, c.next)
    | none => (none, c)
  let (chomp, c) := match chomp, increment, c.peek.bind chomping? with
    | none, some _, some m => (some m, c.next)
    | chomp, _, _ => (chomp, c)
  if endOr isSpaceOrBreak c.peek then .ok (⟨chomp.getD .clip, increment⟩, c)
  else .error .malformed

/-- The blank lines before the text, and how far the widest of them and the text are indented. -/
def scanIndentation : (fuel widest : Nat) → Cursor → Text × Nat × Cursor
  | 0, widest, c => ([], widest, c)
  | fuel + 1, widest, c =>
    match c.lineBreak? with
    | some (x, c) =>
      let (t, widest, c) := scanIndentation fuel widest c
      (x :: t, widest, c)
    | none =>
      if c.isAt ' ' then scanIndentation fuel (max widest c.next.column) c.next
      else ([], widest, c)

/-- Skips spaces up to a column. -/
def skipIndent (indent : Nat) (c : Cursor) : Cursor :=
  Cursor.skip (min (c.span isSpace).1.length (indent - c.column)) c

/-- The breaks of blank lines; it stops where a line begins, no further than the indentation. -/
def scanBlankLines (indent : Nat) : (fuel : Nat) → Cursor → Text × Cursor
  | 0, c => ([], c)
  | fuel + 1, c =>
    let c := skipIndent indent c
    match c.lineBreak? with
    | some (x, c) =>
      let (t, c) := scanBlankLines indent fuel c
      (x :: t, c)
    | none => ([], c)

/-- A line of the text begins here. -/
def atBlockLine (indent : Nat) (c : Cursor) : Bool := c.column == indent && !c.rest.isEmpty

/-- Reads the lines of the text, with the blank lines that stand before the first. The result is
the text without its last breaks, the break of the last line, and the breaks behind that. -/
def scanBlockLines (folded : Bool) (indent : Nat) :
    (fuel : Nat) → (blank : Text) → Cursor → Text × Text × Text × Cursor
  | 0, blank, c => ([], [], blank, c)
  | fuel + 1, blank, c =>
    let indented := c.peek.any isSpaceOrTab
    let (line, c) := c.restOfLine
    let ending : Text := match c.lineBreak? with
      | some (x, _) => [x]
      | none => []
    let (more, c) := scanBlankLines indent c.rest.length.succ c.skipBreak
    if atBlockLine indent c then
      let between : Text :=
        if folded && ending == Text.ofChars ['\n'] && !indented && !c.peek.any isSpaceOrTab then
          if more.isEmpty then Text.ofChars [' '] else []
        else ending
      let (t, ending, last, c) := scanBlockLines folded indent fuel more c
      (blank ++ line ++ between ++ t, ending, last, c)
    else (blank ++ line, ending, more, c)

/-- Reads a block scalar; the cursor is behind its mark, and the text is indented at least as far
as the margin. -/
def scanBlock (folded : Bool) (margin : Nat) (c : Cursor) : Except Fault (Text × Cursor) := do
  let (head, c) ← scanBlockHead c
  let c ← c.endLine
  let least := max margin 1
  let (blank, indent, c) := match head.increment with
    | none =>
      let (blank, widest, c) := scanIndentation c.rest.length.succ 0 c
      (blank, max least widest, c)
    | some n =>
      let indent := least + n - 1
      let (blank, c) := scanBlankLines indent c.rest.length.succ c
      (blank, indent, c)
  let (t, ending, last, c) :=
    if atBlockLine indent c then scanBlockLines folded indent c.rest.length.succ blank c
    else ([], [], blank, c)
  match head.chomping with
  | .strip => return (t, c)
  | .clip => return (t ++ ending, c)
  | .keep => return (t ++ ending ++ last, c)

end Letterhead.Yaml
