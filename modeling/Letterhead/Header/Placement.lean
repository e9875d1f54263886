import Letterhead.Settings.Basic
import Letterhead.Text.Blank

/-!
Where a header may start: below a shebang, an XML declaration, a front matter and a heading, in
this order, each looked for where the one before it ends.
-/

namespace Letterhead.Placement

def isShebang (l : Text) : Bool := l.startsWith "#!"

def isXmlDeclaration (l : Text) : Bool := l.trimLeft.startsWith "<?xml"

def isFence (l : Text) : Bool := l.trim == Text.ofString "---"

/-- A heading of the first level. -/
def isHeading (l : Text) : Bool := l.trim.startsWith "# "

def isMarkdown (filename : String) : Bool :=
  endsIn filename ".md" || endsIn filename ".markdown"

def firstIs (p : Text → Bool) (ls : List Text) : Bool := ls.head?.any p

/-- Number of lines up to a fence and with it. -/
def throughFence : List Text → Option Nat
  | [] => none
  | l :: ls => if isFence l then some 1 else (throughFence ls).map (· + 1)

/-- Number of lines of a front matter that opens the text; none if it is not closed. -/
def frontMatterLength : List Text → Nat
  | [] => 0
  | l :: ls => if isFence l then ((throughFence ls).map (· + 1)).getD 0 else 0

/-- The line behind a front matter that opens at a line, or that line. -/
def frontMatterEnd (ls : List Text) (start : Nat) : Nat :=
  start + frontMatterLength (ls.drop start)

/-- The header of the file goes below its front matter. -/
def belowFrontMatter (s : Settings) (filename : String) : Bool :=
  s.files.belowFrontMatter.any (endsIn filename)

/-- The first line that the header may occupy. -/
def offset (s : Settings) (ls : List Text) (filename : String) : Nat :=
  let one (b : Bool) := if b then 1 else 0
  let o := one (firstIs isShebang ls)
  let o := o + one (s.files.exceptions.xmlDeclaration && firstIs isXmlDeclaration (ls.drop o))
  let o := if belowFrontMatter s filename then frontMatterEnd ls o else o
  o + one (s.files.exceptions.markdownHeading && isMarkdown filename &&
    firstIs isHeading (ls.drop o))

end Letterhead.Placement
