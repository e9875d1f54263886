import Letterhead.Yaml.Token

/-!
Reading scalars in quotes.

In single quotes a quote is written twice. In double quotes a backslash opens an escape. A line
break in either is a space, and further ones are kept.
-/

namespace Letterhead.Yaml

open Cursor (skip)

/-- The character that an escape letter stands for. -/
def escaped? (c : CodePoint) : Option Nat :=
  [('0', 0), ('a', 7), ('b', 8), ('t', 9), ('\t', 9), ('n', 10), ('v', 11), ('f', 12), ('r', 13),
    ('e', 27), (' ', 32), ('"', 34), ('\\', 92), ('/', 47), ('N', 0x85), ('_', 0xA0),
    ('L', 0x2028), ('P', 0x2029)].findSome? fun (letter, n) => if c.is letter then some n else none

/-- How many hexadecimal digits follow an escape letter. -/
def escapeWidth? (c : CodePoint) : Option Nat :=
  [('x', 2), ('u', 4), ('U', 8)].findSome? fun (letter, n) => if c.is letter then some n else none

def hexValue? (c : CodePoint) : Option Nat :=
  if c.within 48 57 then some (c.val - 48)
  else if c.within 65 70 then some (c.val - 55)
  else if c.within 97 102 then some (c.val - 87)
  else none

/-- The number in hexadecimal digits at the front of a text. -/
def hexNumber? (width : Nat) (t : Text) : Option Nat :=
  if t.length < width then none
  else ((t.take width).mapM hexValue?).map fun ds => ds.foldl (fun n d => 16 * n + d) 0

/-- The line breaks here and the spaces among them. A document must not end among them. -/
def scanBreaks : (fuel : Nat) → Cursor → Except Fault (Text × Cursor)
  | 0, c => .ok ([], c)
  | fuel + 1, c => do
    if c.atSeparator then throw .malformed
    let c := c.skipWhile isSpaceOrTab
    match c.lineBreak? with
    | some (x, c) =>
      let (t, c) ← scanBreaks fuel c
      return (x :: t, c)
    | none => return ([], c)

/-- Blanks within quotes, and line breaks as they are folded. -/
def scanQuotedBlanks (c : Cursor) : Except Fault (Text × Cursor) := do
  let (blanks, c) := c.span isSpaceOrTab
  if c.rest.isEmpty then throw .malformed
  match c.lineBreak? with
  | some (x, c) =>
    let (more, c) ← scanBreaks c.rest.length.succ c
    let folded : Text :=
      if !x.is '\n' then [x] else if more.isEmpty then [CodePoint.ofChar ' '] else []
    return (folded ++ more, c)
  | none => return (blanks, c)

/-- What a backslash in double quotes stands for; the cursor is behind the backslash. -/
def scanEscape (c : Cursor) : Except Fault (Text × Cursor) :=
  match c.rest with
  | [] => .error .malformed
  | x :: rest =>
    match escaped? x, escapeWidth? x with
    | some n, _ => .ok ([⟨n⟩], c.next)
    | none, some width =>
      match hexNumber? width rest with
      | some n =>
        if n < 0x110000 then .ok ([⟨n⟩], skip width c.next)
        else .error (if n < 0x80000000 then .badNumber else .tooLarge)
      | none => .error .malformed
    | none, none =>
      if isBreak x then scanBreaks rest.length.succ c.skipBreak else .error .malformed

/-- Reads on to the closing quote; the cursor is behind the opening one. -/
def scanQuoted (quote : Char) : (fuel : Nat) → Cursor → Except Fault (Text × Cursor)
  | 0, _ => .error .malformed
  | fuel + 1, c =>
    match c.rest with
    | [] => .error .malformed
    | x :: rest => do
      if x.is quote then
        if quote = '\'' && rest.head?.any (·.is quote) then
          let (t, c) ← scanQuoted quote fuel (skip 2 c)
          return (x :: t, c)
        else return ([], c.next)
      else
        let (part, c) ←
          if isGap x then scanQuotedBlanks c
          else if quote = '"' && x.is '\\' then scanEscape c.next
          else .ok ([x], c.next)
        let (t, c) ← scanQuoted quote fuel c
        return (part ++ t, c)

end Letterhead.Yaml
