import Letterhead.Host
import Letterhead.Pattern.Regex.Parser

/-!
Searching a text for a match.

A match is found by trying the alternatives in order, each with all that has to follow it. A
repetition that has come as far as it was at its last attempt goes no further, so the search ends.
-/

namespace Letterhead.Pattern

/-- A place in a text, with the texts that groups have matched so far. -/
structure Place where
  /-- What lies before, nearest character first. -/
  before : Text
  after : Text
  groups : List (Nat × Text)

namespace Place

def start (t : Text) : Place := ⟨[], t, []⟩

def isWordAt : Option CodePoint → Bool → Bool
  | some c, ascii => CharClass.word.holds ascii c
  | none, _ => false

/-- A word begins or ends here. -/
def atWordEdge (p : Place) (ascii : Bool) : Bool :=
  isWordAt p.before.head? ascii != isWordAt p.after.head? ascii

def satisfies (p : Place) : Anchor → Bool
  | .textStart => p.before.isEmpty
  | .textEnd => p.after.isEmpty
  | .lastLineEnd => p.after.isEmpty || p.after == Text.ofChars ['\n']
  | .lineStart => p.before.head?.all (·.is '\n')
  | .lineEnd => p.after.head?.all (·.is '\n')
  | .wordEdge ascii => p.atWordEdge ascii
  -- an empty text has no place of either kind
  | .noWordEdge ascii => !(p.before.isEmpty && p.after.isEmpty) && !p.atWordEdge ascii

/-- The place behind the next character, if that is in the set. -/
def step? (p : Place) (s : CharSet) : Option Place :=
  match p.after with
  | c :: rest =>
    if s.contains c then some { p with before := c :: p.before, after := rest } else none
  | [] => none

/-- The place behind a given text. -/
def skip? (rule : CaseRule) : Text → Place → Option Place
  | [], p => some p
  | c :: t, p => do
    let p ← p.step? (.single rule c)
    skip? rule t p

/-- The place a number of characters back. -/
def back? (p : Place) : Nat → Option Place
  | 0 => some p
  | n + 1 =>
    match p.before with
    | c :: rest => back? { p with before := rest, after := c :: p.after } n
    | [] => none

/-- The groups, with the text between two places for one of them. -/
def withGroup (q p : Place) (index : Nat) : Place :=
  { q with
    groups := (index, p.after.take (p.after.length - q.after.length)) ::
      q.groups.filter (·.1 != index) }

end Place

abbrev Continuation := Place → Option Place

namespace Regex

/-- A body repeated, as often as possible first. `last` is how much text was left when the body
was last begun of free choice. -/
def repeatMost (body : Continuation → Continuation) (min : Nat) (max : Option Nat)
    (k : Continuation) : (fuel count : Nat) → (last : Option Nat) → Continuation
  | 0, _, _, p => k p
  | fuel + 1, count, last, p =>
    if count < min then body (repeatMost body min max k fuel (count + 1) last) p
    else if max.all (count < ·) && last != some p.after.length then
      (body (repeatMost body min max k fuel (count + 1) (some p.after.length)) p).or (k p)
    else k p

/-- A body repeated, as seldom as possible first. -/
def repeatFewest (body : Continuation → Continuation) (min : Nat) (max : Option Nat)
    (k : Continuation) : (fuel count : Nat) → (last : Option Nat) → Continuation
  | 0, _, _, p => k p
  | fuel + 1, count, last, p =>
    if count < min then body (repeatFewest body min max k fuel (count + 1) last) p
    else
      (k p).or <|
        if max.all (count < ·) && last != some p.after.length then
          body (repeatFewest body min max k fuel (count + 1) (some p.after.length)) p
        else none

/-- A body repeated as long as it matches, each time in its first way. -/
def repeatAll (body : Continuation → Continuation) (min : Nat) (max : Option Nat) :
    (fuel count : Nat) → (last : Option Nat) → Continuation
  | 0, _, _, p => some p
  | fuel + 1, count, last, p =>
    if count < min then do
      let q ← body some p
      repeatAll body min max fuel (count + 1) last q
    else if max.all (count < ·) && last != some p.after.length then
      match body some p with
      | some q => repeatAll body min max fuel (count + 1) (some p.after.length) q
      | none => some p
    else some p

/-- Matches at a place and goes on with what follows. -/
def run : Regex → Continuation → Continuation
  | empty, k, p => k p
  | set s, k, p => (p.step? s).bind k
  | anchor a, k, p => if p.satisfies a then k p else none
  | seq a b, k, p => run a (run b k) p
  | either a b, k, p => (run a k p).or (run b k p)
  | group r, k, p => run r k p
  | capture i r, k, p => run r (fun q => k (q.withGroup p i)) p
  | atomic r, k, p => (run r some p).bind k
  | loop r min max greed, k, p =>
    let fuel := min + p.after.length + 2
    match greed with
    | .most => repeatMost (run r) min max k fuel 0 none p
    | .fewest => repeatFewest (run r) min max k fuel 0 none p
    | .all => (repeatAll (run r) min max fuel 0 none p).bind k
  | captured i rule, k, p =>
    match p.groups.lookup i with
    | some t => (p.skip? rule t).bind k
    | none => none
  | ahead negated r, k, p =>
    match run r some p with
    | some q => if negated then none else k { p with groups := q.groups }
    | none => if negated then k p else none
  | behind negated width r, k, p =>
    match (p.back? width).bind (run r some) with
    | some q => if negated then none else k { p with groups := q.groups }
    | none => if negated then k p else none
  | ifCaptured i yes no, k, p =>
    if (p.groups.lookup i).isSome then run yes k p else run no k p

/-- A match begins at this place or a later one. -/
def searchFrom (r : Regex) (before : Text) : Text → Bool
  | [] => (r.run some ⟨before, [], []⟩).isSome
  | c :: rest =>
    (r.run some ⟨before, c :: rest, []⟩).isSome || searchFrom r (c :: before) rest

/-- A match occurs somewhere in the text. -/
def occursIn (r : Regex) (t : Text) : Bool := r.searchFrom [] t

end Regex

variable (host : Host)

/-- The pattern occurs in the text. -/
def search (pattern : String) (t : Text) : Except Invalid Bool :=
  match host.exhausts pattern with
  | true => .error .tooDeep
  | false => (Regex.parse host.charNamed? pattern.toList).map (·.occursIn t)

/-- The pattern is a valid one and occurs in the text. -/
def occurs (pattern : String) (t : Text) : Bool :=
  match search host pattern t with
  | .ok found => found
  | .error _ => false

def anyOccurs (patterns : List String) (t : Text) : Bool := patterns.any (occurs host · t)

/-- What ends the run when patterns are searched for in a text. They are taken in order up to the
first that occurs, and a malformed one does not occur. -/
def halt? (t : Text) : List String → Option Invalid
  | [] => none
  | p :: rest =>
    match search host p t with
    | .ok true => none
    | .ok false => halt? t rest
    | .error .malformed => halt? t rest
    | .error e => some e

end Letterhead.Pattern
