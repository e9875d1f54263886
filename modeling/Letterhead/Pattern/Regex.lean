import Letterhead.Pattern.CharSet

/-!
Regular expressions as trees, and how wide a match can be.
-/

namespace Letterhead.Pattern

/-- A place between characters, or a test of one. -/
inductive Anchor where
  | textStart
  | textEnd
  /-- The end of the text, or of the line that ends the text. -/
  | lastLineEnd
  | lineStart
  | lineEnd
  | wordEdge (ascii : Bool)
  | noWordEdge (ascii : Bool)
deriving DecidableEq

/-- In which order the numbers of repetitions are tried. -/
inductive Greed where
  | most
  | fewest
  /-- As many as there are, and no other number. -/
  | all
deriving DecidableEq

inductive Regex where
  | empty
  | set (s : CharSet)
  | anchor (a : Anchor)
  | seq (first second : Regex)
  | either (first second : Regex)
  | group (body : Regex)
  | capture (index : Nat) (body : Regex)
  /-- The first match of the body and no other. -/
  | atomic (body : Regex)
  | loop (body : Regex) (min : Nat) (max : Option Nat) (greed : Greed)
  | captured (index : Nat) (rule : CaseRule)
  | ahead (negated : Bool) (body : Regex)
  | behind (negated : Bool) (width : Nat) (body : Regex)
  | ifCaptured (index : Nat) (yes no : Regex)

/-- The least and the greatest number of characters in a match; nothing if there is no greatest. -/
structure Width where
  min : Nat
  max : Option Nat
deriving DecidableEq

namespace Width

def exactly (n : Nat) : Width := ⟨n, some n⟩

def plus (v w : Width) : Width :=
  ⟨v.min + w.min, do return (← v.max) + (← w.max)⟩

def or (v w : Width) : Width :=
  ⟨Nat.min v.min w.min, do return Nat.max (← v.max) (← w.max)⟩

def times (w : Width) (min : Nat) (max : Option Nat) : Width :=
  ⟨w.min * min,
    match w.max, max with
    | some 0, _ => some 0
    | _, some 0 => some 0
    | some n, some m => some (n * m)
    | _, _ => none⟩

end Width

namespace Regex

/-- The width of a match, given those of the groups. -/
def width (groups : List (Option Width)) : Regex → Width
  | empty => .exactly 0
  | set _ => .exactly 1
  | anchor _ => .exactly 0
  | seq a b => (width groups a).plus (width groups b)
  | either a b => (width groups a).or (width groups b)
  | group r => width groups r
  | capture _ r => width groups r
  | atomic r => width groups r
  | loop r min max _ => (width groups r).times min max
  | captured i _ => (groups[i]?.join).getD (.exactly 0)
  | ahead _ _ => .exactly 0
  | behind _ _ _ => .exactly 0
  | ifCaptured _ a b => (width groups a).or (width groups b)

def isAnchor : Regex → Bool
  | anchor _ => true
  | _ => false

def isLoop : Regex → Bool
  | loop .. => true
  | _ => false

end Regex

end Letterhead.Pattern
