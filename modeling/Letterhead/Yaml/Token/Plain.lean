import Letterhead.Yaml.Token

/-!
Reading scalars without quotes.

Such a scalar goes on over blanks and line breaks as long as what follows is indented and starts
no key, entry or comment.
-/

namespace Letterhead.Yaml

/-- The mark of a value, or of the end of a value, in brackets and braces. -/
def isFlowMark (c : CodePoint) : Bool := isOneOf ",[]\x7b\x7d" c

/-- A colon with this behind it ends a key. -/
def endsKey (inFlow : Bool) : Option CodePoint → Bool :=
  endOr fun c => isGap c || (inFlow && isFlowMark c)

/-- The characters of a plain scalar up to a blank or to what cannot belong to it. -/
def plainRun (inFlow : Bool) : Text → Text
  | [] => []
  | c :: rest =>
    if isGap c || (c.is ':' && endsKey inFlow rest.head?) ||
        (inFlow && (isFlowMark c || c.is '?')) then []
    else c :: plainRun inFlow rest

/-- Line breaks and spaces; nothing if a document ends among them. -/
def plainBreaks? : (fuel : Nat) → Cursor → Option (Text × Cursor) × Cursor
  | 0, c => (some ([], c), c)
  | fuel + 1, c =>
    let c := c.skipWhile isSpace
    match c.lineBreak? with
    | none => (some ([], c), c)
    | some (x, c) =>
      if c.atSeparator then (none, c)
      else
        match plainBreaks? fuel c with
        | (some (t, c), last) => (some (x :: t, c), last)
        | (none, last) => (none, last)

/-- The blanks within a plain scalar, as they count if it goes on behind them. -/
structure PlainGap where
  text : Text
  crossesLine : Bool
  cursor : Cursor

def scanPlainGap (c : Cursor) : PlainGap :=
  let (blanks, c) := c.span isSpace
  match c.lineBreak? with
  | none => ⟨blanks, false, c⟩
  | some (x, c) =>
    if c.atSeparator then ⟨[], true, c⟩
    else
      match plainBreaks? c.rest.length.succ c with
      | (none, c) => ⟨[], true, c⟩
      | (some (more, c), _) =>
        let folded : Text :=
          if !x.is '\n' then [x] else if more.isEmpty then [CodePoint.ofChar ' '] else []
        ⟨folded ++ more, true, c⟩

/-- Reads a plain scalar: its text, whether it ends behind a line break, and the place behind it
and its blanks. -/
def scanPlain (inFlow : Bool) (margin : Nat) :
    (fuel : Nat) → (gap : Text) → (crossed : Bool) → Cursor → Text × Bool × Cursor
  | 0, _, crossed, c => ([], crossed, c)
  | fuel + 1, gap, crossed, c =>
    let run := plainRun inFlow c.rest
    if c.isAt '#' || run.isEmpty then ([], crossed, c)
    else
      let g := scanPlainGap (Cursor.skip run.length c)
      let (t, crossed, c) :=
        if g.text.isEmpty || g.cursor.isAt '#' || (!inFlow && g.cursor.column < margin) then
          ([], g.crossesLine, g.cursor)
        else scanPlain inFlow margin fuel g.text g.crossesLine g.cursor
      (gap ++ run ++ t, crossed, c)

end Letterhead.Yaml
