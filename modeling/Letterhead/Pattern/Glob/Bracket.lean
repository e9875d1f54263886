import Letterhead.Pattern.CharSet

/-!
Sets in brackets in glob patterns.

A hyphen between two characters makes a range; a range that runs backwards is dropped. The named
classes of POSIX stand for their ASCII characters.
-/

namespace Letterhead.Pattern.Glob

/-- A part of a set as it is read. -/
inductive BracketPart where
  /-- A character that may still act as a mark: a hyphen as one of a range, a caret at the front
  as one of negation. -/
  | bare (c : Char)
  | fixed (c : Char)
  | named (members : List Member)

namespace BracketPart

def span (first last : Nat) : Member := .span ⟨first⟩ ⟨last⟩

def posixClasses : List (String × List Member) := [
  ("alnum", [span 48 57, span 65 90, span 97 122]),
  ("alpha", [span 65 90, span 97 122]),
  ("ascii", [span 0 127]),
  ("blank", [.one ⟨9⟩, .one ⟨32⟩]),
  ("cntrl", [span 0 31, .one ⟨127⟩]),
  ("digit", [span 48 57]),
  ("graph", [span 33 126]),
  ("lower", [span 97 122]),
  ("print", [span 32 126]),
  ("punct", [span 33 47, span 58 64, span 91 96, span 123 126]),
  ("space", [span 9 13, .one ⟨32⟩]),
  ("upper", [span 65 90]),
  ("word", [span 48 57, span 65 90, .one ⟨95⟩, span 97 122]),
  ("xdigit", [span 48 57, span 65 70, span 97 102])]

/-- Reads a named class behind its opening bracket. -/
def readPosix (cs : List Char) : Option (List Member × List Char) :=
  match cs with
  | ':' :: rest =>
    let name := rest.takeWhile (· != ':')
    match rest.dropWhile (· != ':') with
    | ':' :: ']' :: rest =>
      (posixClasses.lookup (String.ofList name)).map fun members => (members, rest)
    | _ => none
  | _ => none

def code : BracketPart → Nat
  | bare c => c.toNat
  | fixed c => c.toNat
  | named _ => '-'.toNat

/-- Ends a range, last part first; one that runs backwards goes. The flag says that it went. -/
def endRange (found : List BracketPart) (last : BracketPart) : Bool × List BracketPart :=
  match found with
  | _ :: first :: before =>
    if last.code < first.code then (true, before) else (false, last :: found)
  | found => (false, last :: found)

structure State where
  /-- The parts so far, last one first. -/
  found : List BracketPart
  /-- How much of the pattern was left behind the last hyphen of a range. -/
  hyphen : Option Nat
  inRange : Bool
  afterPosix : Bool

/-- Reads the parts of a set up to its closing bracket. A slash cannot stand in a set. -/
def readParts (s : State) : (fuel : Nat) → List Char → Option (List BracketPart × List Char)
  | 0, _ => none
  | _ + 1, [] => none
  | fuel + 1, c :: rest =>
    if c = ']' then some (s.found.reverse, rest)
    else if c = '-' then
      if s.afterPosix then
        readParts { s with found := .fixed c :: s.found, afterPosix := false } fuel rest
      else if s.hyphen.all (rest.length + 3 ≤ ·) then
        readParts { s with found := .bare c :: s.found, hyphen := some rest.length,
                           inRange := true } fuel rest
      else if s.inRange then
        readParts { s with found := (endRange s.found (.fixed c)).2, inRange := false } fuel rest
      else readParts { s with found := .fixed c :: s.found } fuel rest
    else if c = '/' then none
    else
      let posix := if c = '[' then readPosix rest else none
      match posix with
      | some (members, rest) =>
        -- a class ends no range, so the hyphen before it is a character
        let found := match s.inRange, s.found with
          | true, _ :: found => .fixed '-' :: found
          | _, found => found
        readParts { s with found := .named members :: found, afterPosix := true } fuel rest
      | none =>
        let found := if s.inRange then (endRange s.found (.bare c)).2 else .bare c :: s.found
        readParts { s with found, inRange := false, afterPosix := false } fuel rest

/-- The members that parts stand for. -/
def members : List BracketPart → List Member
  | [] => []
  | [.named ms] => ms
  | [.bare c] => [.one c]
  | [.fixed c] => [.one c]
  | .named ms :: parts => ms ++ members parts
  | p :: .bare '-' :: q :: parts =>
    match q with
    | .named ms => .span ⟨p.code⟩ ⟨p.code⟩ :: .one '-' :: ms ++ members parts
    | q => span p.code q.code :: members parts
  | p :: parts => .one ⟨p.code⟩ :: members parts

def toSet (parts : List BracketPart) : CharSet :=
  match parts with
  | .bare '^' :: parts => ⟨true, .exact, members parts⟩
  | parts => ⟨false, .exact, members parts⟩

/-- The first part of a set, which may be a hyphen or a closing bracket. -/
def readFirst (negation : List BracketPart) (cs : List Char) : State × List Char :=
  let start : State := ⟨negation, none, false, false⟩
  match cs with
  | '[' :: rest =>
    match readPosix rest with
    | some (ms, rest) => ({ start with found := .named ms :: negation, afterPosix := true }, rest)
    | none => ({ start with found := .fixed '[' :: negation }, rest)
  | '-' :: rest => ({ start with found := .fixed '-' :: negation }, rest)
  | ']' :: rest => ({ start with found := .fixed ']' :: negation }, rest)
  | cs => (start, cs)

/-- Reads a set behind its opening bracket. -/
def readSet (cs : List Char) : Option (CharSet × List Char) := do
  let (negation, cs) := match cs with
    | '!' :: rest => ([.bare '^'], rest)
    | '^' :: rest => ([.bare '^'], rest)
    | cs => ([], cs)
  let (state, cs) := readFirst negation cs
  let (parts, rest) ← readParts state (cs.length + 1) cs
  return (toSet parts, rest)

end BracketPart

end Letterhead.Pattern.Glob
