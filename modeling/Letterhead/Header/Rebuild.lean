import Letterhead.Header.Window
import Letterhead.Text.Lines

/-!
Rebuilding a file around its header.

The lines before the offset and behind the window stay. Of the window goes what belonged to an
old header: lines of their own, whole comments that hold nothing else, and one blank line behind
each of these. The header comes in at the offset, with the notices of others where the settings
want them.
-/

namespace Letterhead

/-- A line of the window with its kind. -/
abbrev Entry := Text × LineKind

namespace Settings

/-- Lines of the kind go, unless they are put back next to the header. -/
def removes (s : Settings) (k : LineKind) : Bool :=
  match k with
  | .content => false
  | .thirdParty => s.thirdParty.action ≠ .leave
  | _ => true

def isFiller (t : Text) : Bool :=
  let t := t.trim
  t.isEmpty || t == Text.ofChars ['*']

/-- A line within a comment that may go with the comment; `t` is its text before a closing mark. -/
def isMaterial (s : Settings) (k : LineKind) (t : Text) : Bool :=
  isFiller t || s.removes k || isSpdxText t.trim || s.isOwnText t.trim

/-- Number of lines through the one that closes a comment of nothing but header material, at least
one of which is more than filler. -/
def materialThrough (s : Settings) (closer : Text) : (found : Bool) → List Entry → Option Nat
  | _, [] => none
  | found, (l, k) :: es =>
    let line := l.trim
    let before := Text.dropTail? closer line
    let t := before.getD line
    if s.isMaterial k t then
      let found := found || !isFiller t
      if before.isSome then (if found then some 1 else none)
      else (materialThrough s closer found es).map (· + 1)
    else none

/-- Number of lines that follow a line in a comment that it opens and that goes as a whole. -/
def removedBlock? (s : Settings) (l : Text) (es : List Entry) : Option Nat :=
  (CommentStyle.closerOf? l).bind fun closer => materialThrough s closer false es

/-- What the line before has left to do. -/
inductive Phase where
  | copying
  /-- A comment goes, with so many lines of it to come. -/
  | removing (left : Nat)
  /-- Something went, and a blank line behind it goes too. -/
  | removed
deriving DecidableEq

/-- The lines of the window that stay. -/
def survivors (s : Settings) : Phase → List Entry → List Text
  | _, [] => []
  | .removing (left + 1), _ :: es =>
    survivors s (if left = 0 then .removed else .removing left) es
  | phase, (l, k) :: es =>
    if phase = .removed ∧ l.isBlank then survivors s .copying es
    else
      match s.removedBlock? l es with
      | some left => survivors s (.removing left) es
      | none =>
        if s.removes k then survivors s .removed es
        else l :: survivors s .copying es

/-- The lines that come in at the offset. -/
def inserted (s : Settings) (sc : Scan) (ls : List Text) (e : LineEnd) : List Text :=
  let header := sc.header.lines.map (· ++ e.tail)
  match s.thirdParty.action with
  | .above => header ++ sc.notices ls
  | .below => sc.notices ls ++ header
  | _ => header

/-- An empty line, unless a blank one follows anyway. -/
def separator (sc : Scan) (ls : List Text) (e : LineEnd) : List Text :=
  if (ls[sc.offset]?).any Text.isBlank then [] else [e.tail]

def rebuild (s : Settings) (sc : Scan) (ls : List Text) (e : LineEnd) : List Text :=
  ls.take sc.offset ++ s.inserted sc ls e ++ separator sc ls e ++
    s.survivors .copying ((ls.drop sc.offset).zip sc.kinds) ++ ls.drop sc.limit

end Settings

end Letterhead
