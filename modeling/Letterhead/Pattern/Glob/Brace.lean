import Letterhead.Number.Rounding
import Letterhead.Text.Digit

/-!
Braces in glob patterns, and the patterns they stand for.

`{a,b}` stands for either part, `{1..3}` and `{a..c}` for a range. A brace that opens no such
group is a character of its own, and so is one behind a dollar sign.
-/

namespace Letterhead.Pattern.Glob

inductive Braced where
  | char (c : Char)
  | choice (options : List (List Braced))
  /-- So many numbers from a first one on, filled with zeros to a width. -/
  | numbers (first step : Int) (count width : Nat)
  | letters (parts : List (List Char))

namespace Braced

mutual

/-- Number of texts that an item stands for. -/
def count : Braced → Nat
  | char _ => 1
  | choice options => countChoice options
  | numbers _ _ n _ => n
  | letters parts => parts.length

def countChoice : List (List Braced) → Nat
  | [] => 0
  | items :: options => countAll items + countChoice options

def countAll : List Braced → Nat
  | [] => 1
  | item :: items => count item * countAll items

end

def numberText (width : Nat) (i : Int) : List Char :=
  let sign := if i < 0 then ['-'] else []
  sign ++ Number.padded (width - sign.length) i.natAbs

mutual

/-- The texts that an item stands for, in order. -/
def texts : Braced → List (List Char)
  | char c => [[c]]
  | choice options => textsChoice options
  | numbers first step n width =>
    (List.range n).map fun (k : Nat) => numberText width (first + step * (k : Int))
  | letters parts => parts

def textsChoice : List (List Braced) → List (List Char)
  | [] => []
  | items :: options => textsAll items ++ textsChoice options

def textsAll : List Braced → List (List Char)
  | [] => [[]]
  | item :: items =>
    let rest := textsAll items
    (texts item).flatMap fun t => rest.map (t ++ ·)

end

/-! Ranges. -/

structure Bound where
  text : List Char
  value : Int

/-- Reads a whole number. -/
def readBound (cs : List Char) : Option (Bound × List Char) :=
  let (sign, rest) := match cs with
    | '-' :: rest => (['-'], rest)
    | cs => ([], cs)
  let isDigit (c : Char) := (CodePoint.ofChar c).isDigit
  let ds := rest.takeWhile isDigit
  if ds.isEmpty then none
  else
    let n : Nat := (ds.filterMap fun c => (CodePoint.ofChar c).digitValue?).foldl
      (fun n d => 10 * n + d) 0
    some (⟨sign ++ ds, if sign.isEmpty then (n : Int) else -(n : Int)⟩, rest.dropWhile isDigit)

def readDots : List Char → Option (List Char)
  | '.' :: '.' :: rest => some rest
  | _ => none

/-- The step of a range and what follows the closing brace. -/
def readStep (cs : List Char) : Option (Option Int × List Char) :=
  match cs with
  | '\x7d' :: rest => some (none, rest)
  | cs => do
    let (b, rest) ← readBound (← readDots cs)
    match rest with
    | '\x7d' :: rest => some (some b.value, rest)
    | _ => none

def hasZero (text : List Char) : Bool :=
  let ds := text.dropWhile (· == '-')
  ds.length > 1 && ds.head? == some '0'

def numberRange (first last : Bound) (step : Option Int) : Braced :=
  let size := (step.getD 1).natAbs
  let size := if size = 0 then 1 else size
  let width :=
    if hasZero first.text || hasZero last.text then max first.text.length last.text.length else 0
  .numbers first.value (if first.value < last.value then size else -(size : Int))
    ((last.value - first.value).natAbs / size + 1) width

/-- The characters between two letters; the backslash among them is an empty text. -/
def letterRange (first last : Char) (step : Option Int) : Braced :=
  let size := (step.getD 1).natAbs
  let size := if size = 0 then 1 else size
  let lo := first.toNat
  let hi := last.toNat
  let count := (if lo ≤ hi then hi - lo else lo - hi) / size + 1
  .letters <| (List.range count).map fun k =>
    let n := if lo ≤ hi then lo + size * k else lo - size * k
    if n = 92 then [] else [Char.ofNat n]

def isLetter (c : Char) : Bool := ('a' ≤ c && c ≤ 'z') || ('A' ≤ c && c ≤ 'Z')

def readNumbers (cs : List Char) : Option (Braced × List Char) := do
  let (first, rest) ← readBound cs
  let (last, rest) ← readBound (← readDots rest)
  let (step, rest) ← readStep rest
  return (numberRange first last step, rest)

def readLetters (cs : List Char) : Option (Braced × List Char) :=
  match cs with
  | first :: '.' :: '.' :: last :: rest =>
    if isLetter first && isLetter last then
      (readStep rest).map fun (step, rest) => (letterRange first last step, rest)
    else none
  | _ => none

/-- A range behind an opening brace. -/
def readRange (cs : List Char) : Option (Braced × List Char) :=
  (readNumbers cs).or (readLetters cs)

/-! Groups. -/

mutual

/-- Reads items up to a comma or a closing brace of the group around them; `depth` is the number
of groups around. Within a group the end of the pattern is no end of the items. -/
def readItems (depth : Nat) (whole : Nat) :
    (fuel : Nat) → (dollar : Bool) → List Char → Option (List Braced × List Char)
  | 0, _, _ => none
  | _ + 1, _, [] => if depth = 0 then some ([], []) else none
  | fuel + 1, dollar, c :: rest =>
    if 0 < depth && (c == ',' || c == '\x7d') then some ([], c :: rest)
    else
      let more (items : List Braced) (rest : List Char) :=
        (readItems depth whole fuel (c == '$') rest).map fun (found, rest) =>
          (items ++ found, rest)
      if c == '\x7b' && !dollar then
        match readGroup (depth + 1) whole fuel rest with
        | some (items, rest) => more items rest
        | none => more [.char c] rest
      else more [.char c] rest

/-- Reads a group behind its opening brace. -/
def readGroup (depth : Nat) (whole : Nat) :
    (fuel : Nat) → List Char → Option (List Braced × List Char)
  | 0, _ => none
  | fuel + 1, cs =>
    match readRange cs with
    | some (range, rest) => some ([range], rest)
    | none => readOptions depth whole [] false true fuel cs

/-- Reads the options of a group, `options` those before. A group without a comma is no choice;
at the outermost level its closing brace is a character and the group goes on, unless it closes a
pair of braces that opens the pattern. -/
def readOptions (depth : Nat) (whole : Nat) (options : List (List Braced))
    (comma blank : Bool) : (fuel : Nat) → List Char → Option (List Braced × List Char)
  | 0, _ => none
  | _ + 1, [] => none
  | fuel + 1, c :: rest =>
    if c = '\x7d' then
      if depth = 1 && !comma && rest.length + 2 != whole then
        if rest.isEmpty then none
        else
          match readItems depth whole fuel false rest with
          | none => none
          | some (items, rest) =>
            let first := options.flatten ++ Braced.char c :: items
            readOptions depth whole [first] comma false fuel rest
      else
        let options := if blank then options ++ [[]] else options
        if comma then some ([.choice options], rest)
        else some (.char '\x7b' :: options.flatten ++ [.char '\x7d'], rest)
    else if c = ',' then
      let options := if blank then options ++ [[]] else options
      readOptions depth whole options true true fuel rest
    else
      match readItems depth whole fuel false (c :: rest) with
      | none => none
      | some (items, rest) => readOptions depth whole (options ++ [items]) comma false fuel rest

end

/-- The items of a pattern. -/
def ofPattern (cs : List Char) : List Braced :=
  ((readItems 0 cs.length (4 * cs.length + 4) false cs).map (·.1)).getD []

/-- Empty texts behind the last one that is not empty are dropped. -/
def dropEmptyEnd (ts : List (List Char)) : List (List Char) :=
  match (ts.reverse.dropWhile List.isEmpty).reverse with
  | [] => [[]]
  | ts => ts

/-- The patterns that a pattern with braces stands for, if there are no more than `limit`. -/
def expand? (limit : Nat) (cs : List Char) : Option (List (List Char)) :=
  let items := ofPattern cs
  if countAll items ≤ limit then some (dropEmptyEnd (textsAll items)) else none

end Braced

end Letterhead.Pattern.Glob
