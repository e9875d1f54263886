import Letterhead.Pattern.CharSet

/-!
Glob patterns as sequences of pieces, and the paths they match.

A star and a question mark stay within a segment of the path, and at the start of a segment they
match neither `.` nor `..`. Two stars that make up a segment span segments, but do not enter one
that is `.` or `..`. Slashes at the end of a path do not count.
-/

namespace Letterhead.Pattern.Glob

inductive Piece where
  | char (c : Char)
  /-- One character of a set; `opens` says that it opens a segment. -/
  | set (opens : Bool) (s : CharSet)
  | star (opens : Bool)
  | slashes
  /-- Any number of segments; `inner` says that a slash has to come before them. -/
  | segments (inner : Bool)
deriving DecidableEq

/-- What has to match the rest of a path; the flag says that the rest is the whole path. -/
abbrev Rest := Bool → List Char → Bool

/-- A segment ends here, or there is one line feed more and nothing behind it. -/
def atSegmentEnd (cs : List Char) : Bool := cs == [] || cs == ['\n'] || cs.head? == some '/'

/-- The segment is `.` or `..`. -/
def isDots : List Char → Bool
  | '.' :: '.' :: rest => atSegmentEnd rest
  | '.' :: rest => atSegmentEnd rest
  | _ => false

/-- Any number of characters of one segment. -/
def withinSegment (k : Rest) : Rest
  | first, [] => k first []
  | first, c :: rest => k first (c :: rest) || (c != '/' && withinSegment k false rest)

/-- One slash or more. -/
def someSlashes (k : Rest) : Rest
  | _, '/' :: rest => k false rest || someSlashes k false rest
  | _, _ => false

/-- The edge of a segment, with any slashes there. -/
def segmentEdge (k : Rest) : Rest := fun first cs =>
  ((first || cs.isEmpty) && k first cs) || someSlashes k first cs

/-- A segment that is `.` or `..` opens here, or behind the slash here. -/
def entersDots (first : Bool) : List Char → Bool
  | '/' :: rest => isDots rest
  | cs => first && isDots cs

/-- Any number of segments and the edge behind them. -/
def acrossSegments (k : Rest) : Rest
  | first, [] => segmentEdge k first []
  | first, c :: rest =>
    segmentEdge k first (c :: rest) ||
      (!entersDots first (c :: rest) && acrossSegments k false rest)

def Piece.run : Piece → Rest → Rest
  | char c, k, _, cs =>
    match cs with
    | d :: rest => c == d && k false rest
    | [] => false
  | set opens s, k, _, cs =>
    !(opens && isDots cs) &&
      match cs with
      | c :: rest => c != '/' && s.contains c && k false rest
      | [] => false
  | star opens, k, first, cs =>
    !(opens && (isDots cs || cs.head?.all (· == '/'))) && withinSegment k first cs
  | slashes, k, first, cs => someSlashes k first cs
  | segments inner, k, first, cs =>
    !(inner && cs.head? != some '/') && acrossSegments k first cs

/-- The pieces match the path, slashes at its end apart. -/
def runAll : List Piece → Rest
  | [], _, cs => cs.all (· == '/')
  | p :: ps, first, cs => p.run (runAll ps) first cs

def pathMatches (ps : List Piece) (path : List Char) : Bool := runAll ps true path

end Letterhead.Pattern.Glob
