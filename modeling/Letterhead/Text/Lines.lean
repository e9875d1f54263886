import Letterhead.Text.Basic

/-!
The lines of a file.

A line ends at a line feed only. A carriage return before it stays in the line, so that a file
with mixed line ends is put together again as it was.
-/

namespace Letterhead

inductive LineEnd where
  | lf
  | crlf
deriving DecidableEq

namespace LineEnd

/-- What a line carries before its line feed. -/
def tail : LineEnd → Text
  | lf => []
  | crlf => Text.ofChars ['\r']

def text (e : LineEnd) : Text := e.tail ++ Text.ofChars ['\n']

end LineEnd

/-- A text cut into lines: the line end most of them have, and whether the last one is ended. -/
structure Lines where
  all : List Text
  lineEnd : LineEnd
  ended : Bool
deriving DecidableEq

namespace Lines

def countLf (t : Text) : Nat := (t.filter (·.is '\n')).length

def countCrlf : Text → Nat
  | [] => 0
  | [_] => 0
  | c :: d :: t => (if c.is '\r' && d.is '\n' then 1 else 0) + countCrlf (d :: t)

/-- The line end of most lines; line feeds win a draw. -/
def dominant (t : Text) : LineEnd :=
  let crlf := countCrlf t
  if crlf > countLf t - crlf then .crlf else .lf

def isEnded (t : Text) : Bool := t.getLast? == some (CodePoint.ofChar '\n')

def ofText (t : Text) : Lines :=
  let ended := isEnded t
  { all := Text.cutAt '\n' (if ended then t.dropLast else t)
    lineEnd := dominant t
    ended := ended }

/-- The text of lines, with a line feed behind the last one if it is ended. -/
def join (lines : List Text) (ended : Bool) : Text :=
  let t := Text.joinWith '\n' lines
  if ended then t ++ Text.ofChars ['\n'] else t

def toText (l : Lines) : Text := join l.all l.ended

end Lines

end Letterhead
