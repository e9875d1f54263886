import Letterhead.Number.Integer
import Letterhead.Pattern.Regex

/-!
Reading regular expressions.

A pattern is read token by token, where a backslash and the character behind it are one token.
What the reader carries along is the groups opened so far: a reference may only go to a group that
is closed, and what looks behind has to be of one width.

A pattern that is malformed is of no use and does no harm. The other reasons why one cannot be used
end the run, so the order in which they are met matters.
-/

namespace Letterhead.Pattern

/-- Why a pattern cannot be used. -/
inductive Invalid where
  | malformed
  | tooManyRepeats
  /-- The number of a character is too large for one. -/
  | tooLargeCode
  | tooManyDigits
  | clashingFlags
  | tooDeep
deriving DecidableEq

structure Token where
  escaped : Bool
  char : Char
deriving DecidableEq

namespace Token

/-- The tokens of a pattern, and whether one more is cut off behind a backslash. -/
def ofChars : List Char → List Token × Bool
  | [] => ([], false)
  | ['\\'] => ([], true)
  | '\\' :: c :: rest => (ofChars rest).map (⟨true, c⟩ :: ·) id
  | c :: rest => (ofChars rest).map (⟨false, c⟩ :: ·) id

def is (t : Token) (c : Char) : Bool := !t.escaped && t.char == c

def isIn (t : Token) (cs : String) : Bool := !t.escaped && cs.toList.contains t.char

/-- The characters of the token in the pattern. -/
def plain? (t : Token) : Option Char := if t.escaped then none else some t.char

end Token

structure Flags where
  ignoreCase : Bool := false
  multiline : Bool := false
  dotAll : Bool := false
  verbose : Bool := false
  ascii : Bool := false
  unicode : Bool := false
  /-- Repetitions are not allowed. -/
  single : Bool := false
deriving DecidableEq

namespace Flags

def rule (f : Flags) : CaseRule :=
  if !f.ignoreCase then .exact else if f.ascii then .ascii else .unicode

/-- The flag that a letter stands for. -/
def ofChar? : Char → Option Flags
  | 'i' => some { ignoreCase := true }
  | 'm' => some { multiline := true }
  | 's' => some { dotAll := true }
  | 'x' => some { verbose := true }
  | 'a' => some { ascii := true }
  | 'u' => some { unicode := true }
  | 't' => some { single := true }
  | _ => none

def zip (op : Bool → Bool → Bool) (f g : Flags) : Flags :=
  { ignoreCase := op f.ignoreCase g.ignoreCase
    multiline := op f.multiline g.multiline
    dotAll := op f.dotAll g.dotAll
    verbose := op f.verbose g.verbose
    ascii := op f.ascii g.ascii
    unicode := op f.unicode g.unicode
    single := op f.single g.single }

def union (f g : Flags) : Flags := zip or f g

def meet (f g : Flags) : Flags := zip and f g

def without (f g : Flags) : Flags := zip (fun a b => a && !b) f g

def isAlphabet (f : Flags) : Bool := f.ascii || f.unicode

/-- The flags within a group that adds and drops some. -/
def within (f added dropped : Flags) : Flags :=
  let f := if added.isAlphabet then { f with ascii := false, unicode := false } else f
  (f.union added).without dropped

end Flags

structure Reader where
  /-- The characters of names. -/
  charNamed? : List Char → Option CodePoint
  rest : List Token
  /-- A token behind the others is cut off. -/
  cutOff : Bool
  flags : Flags
  /-- The width of each group, number zero included, once it is closed. -/
  groups : List (Option Width)
  names : List (String × Nat)
  /-- The first group that a lookbehind opened. -/
  behindFrom : Option Nat
  /-- Numbers of groups that have to exist in the end. -/
  wanted : List Nat
  /-- Something that looks behind is not of one width. -/
  uneven : Bool

abbrev Parse := StateT Reader (Except Invalid)

namespace Parse

def fail {α : Type} : Parse α := throw .malformed

def peek : Parse (Option Token) := return (← get).rest.head?

/-- Goes on to a rest, where the first token has to be whole. -/
def goOn (rest : List Token) : Parse Unit := do
  let s ← get
  if rest.isEmpty && s.cutOff then fail
  set { s with rest }

def next : Parse (Option Token) := do
  match (← get).rest with
  | [] => return none
  | t :: rest =>
    goOn rest
    return some t

/-- The next token, which there has to be. -/
def need : Parse Token := do
  match ← next with
  | some t => return t
  | none => fail

def accept (c : Char) : Parse Bool := do
  match ← peek with
  | some t =>
    if t.is c then
      let _ ← next
      return true
    else return false
  | none => return false

def expect (c : Char) : Parse Unit := do
  if !(← accept c) then fail

/-- Plain characters of a kind, so many at most. -/
def chars (ok : Char → Bool) : Nat → Parse (List Char)
  | 0 => return []
  | n + 1 => do
    match (← peek).bind Token.plain? with
    | some c =>
      if ok c then
        let _ ← next
        return c :: (← chars ok n)
      else return []
    | none => return []

def digitRun : Parse (List Char) := do chars Char.isDigit (← get).rest.length

/-- The characters up to a mark, which is dropped. -/
def untilMark (mark : Char) : Nat → Parse (List Char)
  | 0 => fail
  | n + 1 => do
    let t ← need
    if t.is mark then return []
    else
      match t.plain? with
      | some c => return c :: (← untilMark mark n)
      | none => fail

def nameUntil (mark : Char) : Parse (List Char) := do
  let name ← untilMark mark ((← get).rest.length + 1)
  if name.isEmpty then fail
  return name

def isOctal (c : Char) : Bool := '0' ≤ c && c ≤ '7'

def isHex (c : Char) : Bool := c.isDigit || ('a' ≤ c && c ≤ 'f') || ('A' ≤ c && c ≤ 'F')

def hexValue (c : Char) : Nat :=
  if c.isDigit then c.toNat - 48 else if 'a' ≤ c then c.toNat - 87 else c.toNat - 55

def valueIn (base : Nat) (ds : List Char) : Nat := ds.foldl (fun n d => base * n + hexValue d) 0

/-- A character given by so many hexadecimal digits. -/
def hexEscape (count : Nat) : Parse CodePoint := do
  let ds ← chars isHex count
  if ds.length < count then fail
  let n := valueIn 16 ds
  if n < 0x110000 then return ⟨n⟩
  else if n < 0x80000000 then fail
  else throw .tooLargeCode

/-- A character given by its name in braces. -/
def nameEscape : Parse CodePoint := do
  expect '\x7b'
  let name ← nameUntil '\x7d'
  match (← get).charNamed? name with
  | some c => return c
  | none => fail

def octalEscape (ds : List Char) : Parse CodePoint := do
  let n := valueIn 8 ds
  if n ≤ 255 then return ⟨n⟩ else fail

def isAsciiLetter (c : Char) : Bool := ('a' ≤ c && c ≤ 'z') || ('A' ≤ c && c ≤ 'Z')

/-- A character that an escape stands for in a set as well as outside. -/
def charEscape (c : Char) : Parse CodePoint := do
  match c with
  | 'a' => return ⟨7⟩
  | 'f' => return ⟨12⟩
  | 'n' => return ⟨10⟩
  | 'r' => return ⟨13⟩
  | 't' => return ⟨9⟩
  | 'v' => return ⟨11⟩
  | 'x' => hexEscape 2
  | 'u' => hexEscape 4
  | 'U' => hexEscape 8
  | 'N' => nameEscape
  | c => if isAsciiLetter c || c.isDigit then fail else return c

def namedClass? (ascii : Bool) : Char → Option Member
  | 'd' => some (.named .digit ascii false)
  | 'D' => some (.named .digit ascii true)
  | 's' => some (.named .blank ascii false)
  | 'S' => some (.named .blank ascii true)
  | 'w' => some (.named .word ascii false)
  | 'W' => some (.named .word ascii true)
  | _ => none

/-! Sets in brackets. -/

def memberEscape (ascii : Bool) (c : Char) : Parse Member := do
  if let some m := namedClass? ascii c then return m
  if c = 'b' then return .one ⟨8⟩
  if isOctal c then return .one (← octalEscape (c :: (← chars isOctal 2)))
  return .one (← charEscape c)

def member (ascii : Bool) (t : Token) : Parse Member := do
  if t.escaped then memberEscape ascii t.char else return .one t.char

/-- The members of a set up to the closing bracket, `found` those before, last first. -/
def members (ascii : Bool) (found : List Member) : Nat → Parse (List Member)
  | 0 => fail
  | n + 1 => do
    let t ← need
    if t.is ']' && !found.isEmpty then return found.reverse
    let first ← member ascii t
    if ← accept '-' then
      let t ← need
      if t.is ']' then return (.one '-' :: first :: found).reverse
      match first, ← member ascii t with
      | .one lo, .one hi =>
        if hi.val < lo.val then fail
        members ascii (.span lo hi :: found) n
      | _, _ => fail
    else members ascii (first :: found) n

def bracketSet (f : Flags) : Parse Regex := do
  let negated ← accept '^'
  let ms ← members f.ascii [] ((← get).rest.length + 1)
  return .set ⟨negated, f.rule, ms⟩

/-! References to groups. -/

def isClosed (s : Reader) (i : Nat) : Bool := (s.groups[i]?.join).isSome

/-- What looks behind may not refer to a group that it opened itself. -/
def checkBehind (i : Nat) : Parse Unit := do
  let s ← get
  if let some first := s.behindFrom then
    if !isClosed s i || first ≤ i then fail

def reference (f : Flags) (i : Nat) : Parse Regex := do
  if !isClosed (← get) i then fail
  checkBehind i
  return .captured i f.rule

def isDigitToken (t : Option Token) : Bool := t.any fun t => !t.escaped && t.char.isDigit

def isOctalToken (t : Option Token) : Bool := t.any fun t => !t.escaped && isOctal t.char

/-- A digit from 1 to 9 behind a backslash: three octal digits are a character, else one digit or
two are the number of a group. -/
def numberEscape (f : Flags) (c : Char) : Parse Regex := do
  if isDigitToken (← peek) then
    let d := (← need).char
    if isOctal c && isOctal d && isOctalToken (← peek) then
      let e := (← need).char
      return .set (.single f.rule (← octalEscape [c, d, e]))
    reference f (valueIn 10 [c, d])
  else reference f (valueIn 10 [c])

def escape (f : Flags) (c : Char) : Parse Regex := do
  if let some m := namedClass? f.ascii c then return .set ⟨false, f.rule, [m]⟩
  match c with
  | 'A' => return .anchor .textStart
  | 'Z' => return .anchor .textEnd
  | 'b' => return .anchor (.wordEdge f.ascii)
  | 'B' => return .anchor (.noWordEdge f.ascii)
  | '0' => return .set (.single f.rule ⟨valueIn 8 (← chars isOctal 2)⟩)
  | c =>
    if c.isDigit then numberEscape f c
    else return .set (.single f.rule (← charEscape c))

/-! Repetition. -/

/-- The number of repetitions from which on a count is refused. -/
def repeatLimit : Nat := 0xFFFFFFFF

def repeatCount (ds : List Char) : Parse (Option Nat) := do
  if ds.isEmpty then return none
  if Number.digitLimit < ds.length then throw .tooManyDigits
  let n := valueIn 10 ds
  if n ≥ repeatLimit then throw .tooManyRepeats
  return some n

/-- The bounds behind an opening brace; without them the brace stands for itself. -/
def bounds? : Parse (Option (Nat × Option Nat)) := do
  let s ← get
  if (s.rest.head?).any (·.is '\x7d') then return none
  let lo ← digitRun
  let hi ← if ← accept ',' then digitRun else pure lo
  if ← accept '\x7d' then
    let min := (← repeatCount lo).getD 0
    let max ← repeatCount hi
    if max.any (· < min) then fail
    return some (min, max)
  else
    set s
    return none

/-- Puts the last item under a repetition. -/
def repeated (f : Flags) (min : Nat) (max : Option Nat) (items : List Regex) :
    Parse (List Regex) := do
  match items with
  | [] => fail
  | item :: before =>
    if item.isAnchor || item.isLoop || f.single then fail
    let greed ← do
      if ← accept '?' then pure Greed.fewest
      else if ← accept '+' then pure Greed.all
      else pure Greed.most
    return .loop item min max greed :: before

/-! Flags in a group. -/

/-- The flags that letters turn on, and the character behind them. -/
def flagsOn (found : Flags) (c : Char) : Nat → Parse (Flags × Char)
  | 0 => fail
  | n + 1 => do
    match Flags.ofChar? c with
    | none => fail
    | some g =>
      let found := found.union g
      if g.isAlphabet && found.ascii && found.unicode then fail
      let t ← need
      if t.isIn ")-:" then return (found, t.char)
      if t.escaped then fail
      flagsOn found t.char n

def flagsOff (found : Flags) (c : Char) : Nat → Parse Flags
  | 0 => fail
  | n + 1 => do
    match Flags.ofChar? c with
    | none => fail
    | some g =>
      if g.isAlphabet then fail
      let found := found.union g
      let t ← need
      if t.is ':' then return found
      if t.escaped then fail
      flagsOff found t.char n

/-- Flags for the whole pattern, or those that a group adds and drops. -/
def groupFlags (c : Char) : Parse (Flags ⊕ Flags × Flags) := do
  let size := (← get).rest.length + 1
  let (on, mark) ← if c = '-' then pure ({}, '-') else flagsOn {} c size
  if mark = ')' then return .inl on
  if on.single then fail
  let off ← do
    if mark = '-' then
      let t ← need
      if t.escaped then fail
      flagsOff {} t.char size
    else pure {}
  if off.single || on.meet off != {} then fail
  return .inr (on, off)

/-! Groups. -/

def isName (cs : List Char) : Bool :=
  match cs with
  | [] => false
  | c :: rest =>
    let c := CodePoint.ofChar c
    c.isWord && !c.isDigit && rest.all fun d => (CodePoint.ofChar d).isWord

/-- Opens a group and gives its number. -/
def openGroup (name : Option (List Char)) : Parse Nat := do
  let s ← get
  let i := s.groups.length
  let names ← match name with
    | none => pure s.names
    | some cs =>
      let n := String.ofList cs
      if (s.names.lookup n).isSome then fail else pure ((n, i) :: s.names)
  set { s with groups := s.groups ++ [none], names }
  return i

def closeGroup (i : Nat) (r : Regex) : Parse Unit :=
  modify fun s => { s with groups := s.groups.set i (some (r.width s.groups)) }

/-- The number that text spells, with blanks around, a sign, and underscores between digits. -/
def groupNumber? (cs : List Char) : Option Nat :=
  let t := Text.trim (Text.ofChars cs)
  let t := match t with
    | c :: rest => if c.is '+' then rest else c :: rest
    | [] => []
  let parts := Text.cutAt '_' t
  if parts.any List.isEmpty || Number.digitLimit < parts.flatten.length then none
  else (parts.flatten.mapM CodePoint.digitValue?).map fun ds => ds.foldl (10 * · + ·) 0

/-- The number of groups from which on one is refused. -/
def groupLimit : Nat := 0x3FFFFFFF

/-- The group that a condition is about. -/
def conditionGroup : Parse Nat := do
  let cs ← nameUntil ')'
  let i ← do
    if isName cs then
      match (← get).names.lookup (String.ofList cs) with
      | some i => pure i
      | none => fail
    else
      match groupNumber? cs with
      | some i =>
        if i = 0 || groupLimit ≤ i then fail
        modify fun s => { s with wanted := i :: s.wanted }
        pure i
      | none => fail
  checkBehind i
  return i

def comment : Nat → Parse Unit
  | 0 => fail
  | n + 1 => do
    let t ← need
    if t.is ')' then return () else comment n

/-- Skips the rest of a line. -/
def lineComment : Parse Unit := do
  goOn ((← get).rest.dropWhile fun t => !t.is '\n').tail

def isSpace (t : Token) : Bool := t.isIn " \t\n\r\x0b\x0c"

mutual

/-- Alternatives; at the outermost level the flags may change in the first of them. -/
def alternatives (f : Flags) (outermost : Bool) : Nat → Parse Regex
  | 0 => fail
  | n + 1 => do
    let first ← sequence f outermost [] n
    if ← accept '|' then
      let changed := (← get).flags
      return .either first (← laterAlternatives (if outermost then changed else f) n)
    else return first

def laterAlternatives (f : Flags) : Nat → Parse Regex
  | 0 => fail
  | n + 1 => do
    let first ← sequence f false [] n
    if ← accept '|' then return .either first (← laterAlternatives f n)
    else return first

/-- Items in a row, `items` those before, last first. -/
def sequence (f : Flags) (first : Bool) (items : List Regex) : Nat → Parse Regex
  | 0 => fail
  | n + 1 => do
    match ← peek with
    | none => return items.foldl (fun r i => .seq i r) .empty
    | some t =>
      if t.isIn "|)" then return items.foldl (fun r i => .seq i r) .empty
      let _ ← next
      let add (r : Regex) := sequence f first (r :: items) n
      let again (min : Nat) (max : Option Nat) := do
        sequence f first (← repeated f min max items) n
      if f.verbose && isSpace t then sequence f first items n
      else if f.verbose && t.is '#' then do
        lineComment
        sequence f first items n
      else if t.escaped then add (← escape f t.char)
      else
        match t.char with
        | '[' => add (← bracketSet f)
        | '.' => add (.set (if f.dotAll then .full else .inLine))
        | '^' => add (.anchor (if f.multiline then .lineStart else .textStart))
        | '$' => add (.anchor (if f.multiline then .lineEnd else .lastLineEnd))
        | '?' => again 0 (some 1)
        | '*' => again 0 none
        | '+' => again 1 none
        | '\x7b' =>
          match ← bounds? with
          | some (min, max) => again min max
          | none => add (.set (.single f.rule '\x7b'))
        | '(' =>
          if ← accept '?' then extension f first items n
          else add (← capturing f none n)
        | c => add (.set (.single f.rule c))

def capturing (f : Flags) (name : Option (List Char)) : Nat → Parse Regex
  | 0 => fail
  | n + 1 => do
    let i ← openGroup name
    let body ← alternatives f false n
    expect ')'
    closeGroup i body
    return .capture i body

/-- What an opening parenthesis and a question mark begin. -/
def extension (f : Flags) (first : Bool) (items : List Regex) : Nat → Parse Regex
  | 0 => fail
  | n + 1 => do
    let t ← need
    if t.escaped then fail
    let add (r : Regex) := sequence f first (r :: items) n
    match t.char with
    | 'P' =>
      if ← accept '<' then
        let name ← nameUntil '>'
        if !isName name then fail
        add (← capturing f (some name) n)
      else if ← accept '=' then
        let name ← nameUntil ')'
        match (← get).names.lookup (String.ofList name) with
        | some i => add (← reference f i)
        | none => fail
      else fail
    | ':' =>
      let body ← alternatives f false n
      expect ')'
      add (.group body)
    | '>' =>
      let body ← alternatives f false n
      expect ')'
      add (.atomic body)
    | '#' =>
      comment ((← get).rest.length + 1)
      sequence f first items n
    | '=' =>
      let body ← alternatives f false n
      expect ')'
      add (.ahead false body)
    | '!' =>
      let body ← alternatives f false n
      expect ')'
      add (.ahead true body)
    | '<' => add (← lookbehind f n)
    | '(' => add (← conditional f n)
    | c =>
      if c = '-' || (Flags.ofChar? c).isSome then
        match ← groupFlags c with
        | .inl on =>
          if !first || !items.isEmpty then fail
          let flags := (← get).flags.union on
          modify fun s => { s with flags }
          sequence flags first items n
        | .inr (on, off) =>
          let body ← alternatives (f.within on off) false n
          expect ')'
          add (.group body)
      else fail

def lookbehind (f : Flags) : Nat → Parse Regex
  | 0 => fail
  | n + 1 => do
    let t ← need
    if !t.isIn "=!" then fail
    let outer := (← get).behindFrom
    if outer.isNone then modify fun s => { s with behindFrom := some s.groups.length }
    let body ← alternatives f false n
    modify fun s => { s with behindFrom := outer }
    expect ')'
    let w := body.width (← get).groups
    -- this is found out only when the whole pattern is read
    if w.max ≠ some w.min || repeatLimit < w.min then modify fun s => { s with uneven := true }
    return .behind (t.char == '!') w.min body

def conditional (f : Flags) : Nat → Parse Regex
  | 0 => fail
  | n + 1 => do
    let i ← conditionGroup
    let yes ← sequence f false [] n
    let no ← if ← accept '|' then sequence f false [] n else pure .empty
    expect ')'
    return .ifCaptured i yes no

end

def whole (size : Nat) : Parse Regex := do
  let r ← alternatives {} true size
  let s ← get
  if s.flags.ascii && s.flags.unicode then throw .clashingFlags
  if !s.rest.isEmpty || s.wanted.any (s.groups.length ≤ ·) || s.uneven then fail
  return r

end Parse

namespace Regex

def parse (charNamed? : List Char → Option CodePoint) (pattern : List Char) :
    Except Invalid Regex := do
  let (tokens, cutOff) := Token.ofChars pattern
  if tokens.isEmpty && cutOff then throw .malformed
  let reader : Reader :=
    { charNamed?, rest := tokens, cutOff, flags := {}, groups := [none], names := []
      behindFrom := none, wanted := [], uneven := false }
  let (r, _) ← (Parse.whole (4 * tokens.length + 8)).run reader
  return r

end Regex

end Letterhead.Pattern
