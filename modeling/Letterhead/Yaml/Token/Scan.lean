import Letterhead.Yaml.Token.Block
import Letterhead.Yaml.Token.Plain
import Letterhead.Yaml.Token.Property

/-!
Cutting a document into tokens.

Blocks are told by their indentation, so the scan keeps the margins of the open ones: the first
column behind the column at which a block begins. That something is a key shows only at the colon
behind it; until then its place is kept, and the tokens from there on are not given out.
-/

namespace Letterhead.Yaml

/-- A place where a key may have begun. -/
structure KeyStart where
  /-- The number of brackets and braces open there. -/
  depth : Nat
  /-- How many tokens come before the key. -/
  token : Nat
  /-- The key begins a line of a block, so a colon has to follow. -/
  required : Bool
  index : Nat
  line : Nat
  column : Nat

structure Scanning where
  cursor : Cursor
  tokens : Array Token
  /-- The number of brackets and braces open. -/
  depth : Nat
  /-- The margins of the open blocks, innermost first. -/
  margins : List Nat
  allowsKey : Bool
  keys : List KeyStart
  done : Bool

namespace Scanning

def start (t : Text) : Scanning := ⟨.start t, #[], 0, [], true, [], false⟩

def margin (s : Scanning) : Nat := s.margins.head?.getD 0

def inFlow (s : Scanning) : Bool := s.depth != 0

def push (s : Scanning) (t : Token) : Scanning := { s with tokens := s.tokens.push t }

/-- Reads one more character, which is a token of its own. -/
def pushMark (s : Scanning) (t : Token) : Scanning :=
  { s.push t with cursor := s.cursor.next }

/-- How far a key may be away from its colon. -/
def keyReach : Nat := 1024

/-- Gives up the keys that a colon can no longer follow. -/
def dropStale (s : Scanning) : Except Fault Scanning :=
  let isStale (k : KeyStart) := k.line != s.cursor.line || k.index + keyReach < s.cursor.index
  if s.keys.any fun k => isStale k && k.required then .error .malformed
  else .ok { s with keys := s.keys.filter (!isStale ·) }

/-- Gives up a key that may have begun between the same brackets. -/
def dropKey (s : Scanning) : Except Fault Scanning :=
  if s.keys.any fun k => k.depth == s.depth && k.required then .error .malformed
  else .ok { s with keys := s.keys.filter (·.depth != s.depth) }

/-- Keeps this place as one where a key may begin. -/
def keepKey (s : Scanning) : Except Fault Scanning :=
  if !s.allowsKey then .ok s
  else do
    let s ← s.dropKey
    let c := s.cursor
    let required := !s.inFlow && s.margin == c.column + 1
    return { s with
      keys := ⟨s.depth, s.tokens.size, required, c.index, c.line, c.column⟩ :: s.keys }

/-- Closes the blocks that a margin is too small for. -/
def closeBlocks (s : Scanning) (margin : Nat) : Scanning :=
  if s.inFlow then s
  else
    let closed := (s.margins.takeWhile (margin < ·)).length
    { s with
      margins := s.margins.drop closed
      tokens := s.tokens ++ Array.replicate closed Token.blockEnd }

/-- Opens a block at a column, unless there is one already. Its token goes to a given place. -/
def openBlock (s : Scanning) (column place : Nat) (t : Token) : Scanning :=
  if !s.inFlow && s.margin ≤ column then
    { s with margins := (column + 1) :: s.margins, tokens := s.tokens.insertIdxIfInBounds place t }
  else s

/-- Goes to where the next token begins. -/
def skipGap : (fuel : Nat) → Scanning → Scanning
  | 0, s => s
  | fuel + 1, s =>
    let c := (s.cursor.skipWhile isSpace).skipComment
    match c.lineBreak? with
    | some (_, c) => skipGap fuel { s with cursor := c, allowsKey := s.allowsKey || !s.inFlow }
    | none => { s with cursor := c }

/-- Goes to where the next token begins, over a byte order mark at the very start. -/
def skipToToken (s : Scanning) : Scanning :=
  let c := s.cursor
  let c := if c.index == 0 && c.peek.any (·.val == 0xFEFF) then c.next else c
  skipGap c.rest.length.succ { s with cursor := c }

def endStream (s : Scanning) : Except Fault Scanning := do
  let s ← (s.closeBlocks 0).dropKey
  return { s.push .streamEnd with allowsKey := false, keys := [], done := true }

def readDirective (s : Scanning) : Except Fault Scanning := do
  let s ← (s.closeBlocks 0).dropKey
  let (d, c) ← scanDirective s.cursor
  return { s.push (.directive d) with allowsKey := false, cursor := c }

/-- Reads the mark of a document's start or end. -/
def readSeparator (s : Scanning) (t : Token) : Except Fault Scanning := do
  let s ← (s.closeBlocks 0).dropKey
  return { s.push t with allowsKey := false, cursor := Cursor.skip 3 s.cursor }

def openFlow (s : Scanning) (t : Token) : Except Fault Scanning := do
  let s ← s.keepKey
  return { s.pushMark t with depth := s.depth + 1, allowsKey := true }

def closeFlow (s : Scanning) (t : Token) : Except Fault Scanning := do
  let s ← s.dropKey
  return { s.pushMark t with depth := s.depth - 1, allowsKey := false }

def readComma (s : Scanning) : Except Fault Scanning := do
  let s ← s.dropKey
  return { s.pushMark .flowEntry with allowsKey := true }

def readDash (s : Scanning) : Except Fault Scanning := do
  if !s.inFlow && !s.allowsKey then throw .malformed
  let s ← (s.openBlock s.cursor.column s.tokens.size .blockSequenceStart).dropKey
  return { s.pushMark .blockEntry with allowsKey := true }

def readQuestionMark (s : Scanning) : Except Fault Scanning := do
  if !s.inFlow && !s.allowsKey then throw .malformed
  let s ← (s.openBlock s.cursor.column s.tokens.size .blockMappingStart).dropKey
  return { s.pushMark .key with allowsKey := !s.inFlow }

/-- A colon: what may have begun as a key is one. -/
def readColon (s : Scanning) : Except Fault Scanning :=
  match s.keys.find? (·.depth == s.depth) with
  | some k =>
    let s := { s with
      keys := s.keys.filter (·.depth != s.depth)
      tokens := s.tokens.insertIdxIfInBounds k.token .key }
    let s := s.openBlock k.column k.token .blockMappingStart
    .ok { s.pushMark .value with allowsKey := false }
  | none => do
    if !s.inFlow && !s.allowsKey then throw .malformed
    let s ← (s.openBlock s.cursor.column s.tokens.size .blockMappingStart).dropKey
    return { s.pushMark .value with allowsKey := !s.inFlow }

/-- Reads a token that may be a key or begin one. -/
def readKeyPart (s : Scanning) (read : Cursor → Except Fault (Token × Cursor)) :
    Except Fault Scanning := do
  let s ← s.keepKey
  let (t, c) ← read s.cursor
  return { s.push t with allowsKey := false, cursor := c }

def readQuoted (s : Scanning) (quote : Char) : Except Fault Scanning :=
  s.readKeyPart fun c => do
    let (t, c) ← scanQuoted quote c.rest.length.succ c.next
    return (.scalar false t, c)

def readPlain (s : Scanning) : Except Fault Scanning := do
  let s ← s.keepKey
  let (t, crossed, c) := scanPlain s.inFlow s.margin s.cursor.rest.length.succ [] false s.cursor
  return { s.push (.scalar true t) with allowsKey := crossed, cursor := c }

def readBlock (s : Scanning) (folded : Bool) : Except Fault Scanning := do
  let s ← s.dropKey
  let (t, c) ← scanBlock folded s.margin s.cursor.next
  return { s.push (.scalar false t) with allowsKey := true, cursor := c }

/-- A plain scalar may begin with this character. -/
def startsPlain (s : Scanning) (c : CodePoint) : Bool :=
  !(isGap c || isOneOf "-?:,[]\x7b\x7d#&*!|>'\"%@\x60" c) ||
    (!endOr isGap (s.cursor.look 1) && (c.is '-' || (!s.inFlow && (c.is '?' || c.is ':'))))

/-- A mark counts as one in brackets, and elsewhere if a gap follows it. -/
def isMark (s : Scanning) : Bool := s.inFlow || endOr isGap (s.cursor.look 1)

/-- Reads the token that begins with a character. -/
def readToken (s : Scanning) (x : CodePoint) : Except Fault Scanning :=
  let atLineStart := s.cursor.column == 0
  if x.is '%' && atLineStart then s.readDirective
  else if atLineStart && s.cursor.atMark "---" then s.readSeparator .documentStart
  else if atLineStart && s.cursor.atMark "..." then s.readSeparator .documentEnd
  else if x.is '[' then s.openFlow .flowSequenceStart
  else if x.is '\x7b' then s.openFlow .flowMappingStart
  else if x.is ']' then s.closeFlow .flowSequenceEnd
  else if x.is '\x7d' then s.closeFlow .flowMappingEnd
  else if x.is ',' then s.readComma
  else if x.is '-' && endOr isGap (s.cursor.look 1) then s.readDash
  else if x.is '?' && s.isMark then s.readQuestionMark
  else if x.is ':' && s.isMark then s.readColon
  else if x.is '*' then s.readKeyPart fun c => do
    let (name, c) ← scanAnchorName c.next
    return (.reference name, c)
  else if x.is '&' then s.readKeyPart fun c => do
    let (name, c) ← scanAnchorName c.next
    return (.anchor name, c)
  else if x.is '!' then s.readKeyPart scanTag
  else if x.is '|' && !s.inFlow then s.readBlock false
  else if x.is '>' && !s.inFlow then s.readBlock true
  else if x.is '\'' then s.readQuoted '\''
  else if x.is '"' then s.readQuoted '"'
  else if s.startsPlain x then s.readPlain
  else .error .malformed

/-- Reads the next token, with those that its place asks for. -/
def step (s : Scanning) : Except Fault Scanning := do
  let s ← s.skipToToken.dropStale
  let s := s.closeBlocks (s.cursor.column + 1)
  let s ← match s.cursor.peek with
    | none => s.endStream
    | some x => s.readToken x
  s.dropStale

/-- How many tokens are there for good: what may be a key waits for its colon. -/
def settled (s : Scanning) : Nat := s.keys.foldl (fun n k => min n k.token) s.tokens.size

def run : (fuel : Nat) → Scanning → Tokens
  | 0, s => ⟨s.tokens.toList, none⟩
  | fuel + 1, s =>
    if s.done then ⟨s.tokens.toList, none⟩
    else
      match s.step with
      | .ok s => run fuel s
      | .error e => ⟨s.tokens.toList.take s.settled, some e⟩

end Scanning

namespace Tokens

/-- The tokens of a text. -/
def ofText (t : Text) : Tokens :=
  if t.all isAllowed then Scanning.run (t.length + 2) (.start t) else ⟨[], some .malformed⟩

end Tokens

end Letterhead.Yaml
