import Letterhead.Text.Blank
import Letterhead.Text.Case
import Letterhead.Text.Digit
import Letterhead.Text.Word

/-!
Sets of characters in patterns.

A set is a list of members, or all characters that are no member. Letters may be told apart by
case or not; if not, a character is a member when any letter of its case class is.
-/

namespace Letterhead.Pattern

/-- Which letters count as equal. -/
inductive CaseRule where
  | exact
  | unicode
  | ascii
deriving DecidableEq

namespace CaseRule

def letters (rule : CaseRule) (c : CodePoint) : List CodePoint :=
  match rule with
  | exact => [c]
  | unicode => c.caseClass
  | ascii => c.caseClassAscii

def same (rule : CaseRule) (c d : CodePoint) : Bool := (rule.letters c).contains d

end CaseRule

/-- A class of characters that has a name. -/
inductive CharClass where
  | digit
  | blank
  | word
deriving DecidableEq

namespace CharClass

def holds (k : CharClass) (ascii : Bool) (c : CodePoint) : Bool :=
  (!ascii || c.val < 128) &&
    match k with
    | digit => c.isDigit
    -- the four separators are blanks of text, but not of ASCII patterns
    | blank => c.isBlank && !(ascii && c.within 0x1C 0x1F)
    | word => c.isWord

end CharClass

inductive Member where
  | one (c : CodePoint)
  | span (first last : CodePoint)
  | named (k : CharClass) (ascii negated : Bool)
deriving DecidableEq

namespace Member

def holds (rule : CaseRule) (m : Member) (c : CodePoint) : Bool :=
  match m with
  | one d => rule.same c d
  | span first last => (rule.letters c).any fun d => d.within first.val last.val
  | named k ascii negated => k.holds ascii c != negated

end Member

structure CharSet where
  negated : Bool
  rule : CaseRule
  members : List Member
deriving DecidableEq

namespace CharSet

def contains (s : CharSet) (c : CodePoint) : Bool :=
  s.members.any (fun m => m.holds s.rule c) != s.negated

/-- The set of one character. -/
def single (rule : CaseRule) (c : CodePoint) : CharSet := ⟨false, rule, [.one c]⟩

/-- Every character. -/
def full : CharSet := ⟨true, .exact, []⟩

/-- Every character but the line feed. -/
def inLine : CharSet := ⟨true, .exact, [.one '\n']⟩

end CharSet

end Letterhead.Pattern
