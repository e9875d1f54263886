import Letterhead.Pattern.Glob.Brace
import Letterhead.Pattern.Glob.Bracket
import Letterhead.Pattern.Glob.Piece

/-!
Glob patterns for paths.

A pattern that has no segment of two stars also covers everything below what it matches, so that
the name of a directory stands for the files in it.
-/

namespace Letterhead.Pattern.Glob

/-- Reads pieces; `opens` says that a segment opens here, `afterSegments` that the last piece was
a span of segments, and `found` holds the pieces so far, last one first. -/
def readPieces (opens afterSegments : Bool) (found : List Piece) :
    (fuel : Nat) → List Char → List Piece
  | 0, _ => found.reverse
  | _ + 1, [] => found.reverse
  | fuel + 1, c :: rest =>
    let plain (p : Piece) (rest : List Char) := readPieces false false (p :: found) fuel rest
    let spans (rest : List Char) :=
      if afterSegments then readPieces true true found fuel rest
      else
        -- the slash before a span is looked for by the span itself
        let (inner, before) := match found with
          | .slashes :: before => (true, before)
          | before => (!before.isEmpty, before)
        readPieces true true (.segments inner :: before) fuel (rest.dropWhile (· == '/'))
    match c with
    | '*' =>
      match opens, rest with
      | false, _ => plain (.star false) rest
      | true, ['*'] => spans []
      | true, '*' :: '/' :: rest => spans rest
      | true, rest => plain (.star true) (rest.dropWhile (· == '*'))
    | '?' => plain (.set opens .full) rest
    | '/' => readPieces true false (.slashes :: found) fuel (rest.dropWhile (· == '/'))
    | '[' =>
      match BracketPart.readSet rest with
      | some (s, rest) => plain (.set opens s) rest
      | none => plain (.char c) rest
    | c => plain (.char c) rest

def pieces (cs : List Char) : List Piece := readPieces true false [] (cs.length + 1) cs

/-- A pattern without braces matches the path. -/
def plainMatches (cs path : List Char) : Bool :=
  if cs.isEmpty then path.isEmpty else pathMatches (pieces cs) path

/-- How many patterns the braces of a pattern may stand for. -/
def limit : Nat := 1000

/-- The patterns that patterns stand for, if they are no more than the limit together. -/
def expandAll? (room : Nat) : List (List Char) → Option (List (List Char))
  | [] => some []
  | cs :: more => do
    let found ← Braced.expand? room cs
    return found ++ (← expandAll? (room - found.length) more)

/-- Slashes for backslashes, and no `./` in front. -/
def normalize (path : String) : List Char :=
  stripDots (path.toList.map fun c => if c = '\\' then '/' else c)
where
  stripDots : List Char → List Char
    | '.' :: '/' :: rest => stripDots rest
    | cs => cs

def trimSlashes (cs : List Char) : List Char := (cs.reverse.dropWhile (· == '/')).reverse

def hasStars : List Char → Bool
  | '*' :: '*' :: _ => true
  | _ :: rest => hasStars rest
  | [] => false

def below (cs : List Char) : List Char := cs ++ ['/', '*', '*']

/-- The pattern, and those for what lies below it. -/
def candidates (cs : List Char) : List (List Char) :=
  cs :: (if hasStars cs then [] else [below (trimSlashes cs)]) ++
    match cs.reverse with
    | '*' :: '/' :: front => [below front.reverse]
    | _ => []

/-- The braces of a pattern stand for too many patterns. -/
inductive TooMany where
  | patterns

/-- The pattern matches the path. -/
def matchesPath (pattern path : String) : Except TooMany Bool :=
  match expandAll? limit (candidates (normalize pattern)) with
  | some found => .ok (found.any (plainMatches · (normalize path)))
  | none => .error .patterns

/-- The first pattern that matches, or has too many patterns, decides. -/
def anyMatchesPath (patterns : List String) (path : String) : Except TooMany Bool :=
  patterns.anyM (matchesPath · path)

end Letterhead.Pattern.Glob
