import Letterhead.Number.Integer
import Letterhead.Text.Utf8
import Letterhead.Yaml.Token.Quoted

/-!
Reading directives, anchors, references and tags.
-/

namespace Letterhead.Yaml

open Cursor (skip)

/-- A name of at least one character. -/
def scanName (c : Cursor) : Except Fault (Text × Cursor) :=
  match c.span isNameChar with
  | ([], _) => .error .malformed
  | (name, c) => .ok (name, c)

/-- The name of an anchor or a reference; the cursor is behind its mark. -/
def scanAnchorName (c : Cursor) : Except Fault (Text × Cursor) := do
  let (name, c) ← scanName c
  if endOr (fun x => isGap x || isOneOf "?:,]\x7d%@\x60" x) c.peek then return (name, c)
  else throw .malformed

def isUriChar (c : CodePoint) : Bool := isNameChar c || isOneOf ";/?:@&=+$,.!~*'()[]%" c

/-- The bytes of the escapes here: a percent sign and two digits each. -/
def scanUriBytes : (fuel : Nat) → Cursor → Except Fault (Bytes × Cursor)
  | 0, c => .ok ([], c)
  | fuel + 1, c =>
    if c.isAt '%' then
      match hexNumber? 2 c.next.rest with
      | some n => do
        let (bs, c) ← scanUriBytes fuel (skip 2 c.next)
        return (UInt8.ofNat n :: bs, c)
      | none => .error .malformed
    else .ok ([], c)

def scanUriParts : (fuel : Nat) → Cursor → Except Fault (Text × Cursor)
  | 0, c => .ok ([], c)
  | fuel + 1, c => do
    if c.isAt '%' then
      let (bs, c) ← scanUriBytes c.rest.length c
      match Utf8.decode? bs with
      | some part =>
        let (t, c) ← scanUriParts fuel c
        return (part ++ t, c)
      | none => throw .malformed
    else
      match c.span fun x => isUriChar x && !x.is '%' with
      | ([], c) => return ([], c)
      | (part, c) =>
        let (t, c) ← scanUriParts fuel c
        return (part ++ t, c)

def scanUri (c : Cursor) : Except Fault (Text × Cursor) :=
  if c.peek.any isUriChar then scanUriParts c.rest.length.succ c else .error .malformed

/-- A handle: one exclamation mark, or a name between two. -/
def scanHandle (c : Cursor) : Except Fault (Text × Cursor) :=
  if !c.isAt '!' then .error .malformed
  else
    let (name, d) := c.next.span isNameChar
    let bang : CodePoint := CodePoint.ofChar '!'
    if c.next.isAt ' ' then .ok ([bang], c.next)
    else if d.isAt '!' then .ok (bang :: name ++ [bang], d.next)
    else .error .malformed

/-- A tag; the cursor is at its exclamation mark. -/
def scanTag (c : Cursor) : Except Fault (Token × Cursor) := do
  let (tag, c) ←
    match c.look 1 with
    | some x =>
      if x.is '<' then do
        let (uri, c) ← scanUri (skip 2 c)
        if c.isAt '>' then pure (Token.tag none uri, c.next) else throw .malformed
      else if isGap x then pure (Token.tag none (Text.ofChars ['!']), c.next)
      else
        let word := (c.next.span fun x => !isSpaceOrBreak x).1
        let (handle, c) ←
          if word.any (·.is '!') then scanHandle c else .ok (Text.ofChars ['!'], c.next)
        let (suffix, c) ← scanUri c
        pure (Token.tag (some handle) suffix, c)
    | none => pure (Token.tag none (Text.ofChars ['!']), c.next)
  if endOr isSpaceOrBreak c.peek then return (tag, c) else throw .malformed

/-- A number of a version. -/
def scanVersionPart (c : Cursor) : Except Fault (Nat × Cursor) :=
  match c.span (·.within 48 57) with
  | ([], _) => .error .malformed
  | (ds, c) =>
    match Number.readInt? 10 ds with
    | some i => .ok (i.toNat, c)
    | none => .error .badNumber

def scanVersion (c : Cursor) : Except Fault (Directive × Cursor) := do
  let (major, c) ← scanVersionPart (c.skipWhile isSpace)
  if !c.isAt '.' then throw .malformed
  let (_, c) ← scanVersionPart c.next
  if endOr isSpaceOrBreak c.peek then return (.version major, c) else throw .malformed

def scanHandleDirective (c : Cursor) : Except Fault (Directive × Cursor) := do
  let (handle, c) ← scanHandle (c.skipWhile isSpace)
  if !c.isAt ' ' then throw .malformed
  let (beginning, c) ← scanUri (c.skipWhile isSpace)
  if endOr isSpaceOrBreak c.peek then return (.handle handle beginning, c) else throw .malformed

/-- A directive with the rest of its line; the cursor is at its percent sign. -/
def scanDirective (c : Cursor) : Except Fault (Directive × Cursor) := do
  let (name, c) ← scanName c.next
  if !endOr isSpaceOrBreak c.peek then throw .malformed
  let (d, c) ←
    if name == Text.ofString "YAML" then scanVersion c
    else if name == Text.ofString "TAG" then scanHandleDirective c
    else pure (.other, c.restOfLine.2)
  return (d, ← c.endLine)

end Letterhead.Yaml
