import Letterhead.Yaml.Tag
import Letterhead.Yaml.Token

/-!
A document as a row of events, which the tokens are read as.

The reader goes from token to token and keeps a stack of what it waits for: the innermost
collection comes first.
-/

namespace Letterhead.Yaml

inductive Event where
  | documentStart
  | documentEnd
  | streamEnd
  | reference (name : Text)
  | scalar (anchor : Option Text) (tag : Tag) (text : Text)
  | sequenceStart (anchor : Option Text) (tag : Tag)
  | sequenceEnd
  | mappingStart (anchor : Option Text) (tag : Tag)
  | mappingEnd

/-- The events that could be read, and why there are no more, unless they are complete. -/
structure Events where
  all : List Event
  fault : Option Fault

/-- What may come next. -/
inductive Expected where
  | firstDocument
  | document
  | documentContent
  | documentEnd
  | blockNode
  | blockEntry
  /-- An entry of a sequence that is indented no further than the key before it. -/
  | looseEntry
  | blockKey
  | blockValue
  | flowEntry (first : Bool)
  /-- The key of a pair within brackets. -/
  | pairKey
  | pairValue
  | pairEnd
  | flowKey (first : Bool)
  | flowValue
  | noFlowValue

structure Reading where
  tokens : List Token
  /-- Why the tokens end, if they are not complete. -/
  fault : Option Fault
  handles : List (Text × Text)
  expected : List Expected

namespace Reading

/-- The handles that need no directive. -/
def commonHandles : List (Text × Text) :=
  [(Text.ofChars ['!'], Text.ofChars ['!']), (Text.ofChars ['!', '!'], Tag.common)]

def start (ts : Tokens) : Reading := ⟨ts.all, ts.fault, commonHandles, [.firstDocument]⟩

def peek (r : Reading) : Except Fault Token :=
  match r.tokens with
  | t :: _ => .ok t
  | [] => .error (r.fault.getD .malformed)

def next (r : Reading) : Reading := { r with tokens := r.tokens.tail }

def await (r : Reading) (e : Expected) : Reading := { r with expected := e :: r.expected }

def empty : Event := .scalar none .null []

/-- The tag that a handle and a suffix stand for; `!` alone is none. -/
def fullTag? (r : Reading) (handle : Option Text) (suffix : Text) : Except Fault (Option Text) :=
  let bare (t : Text) := if t == Text.ofChars ['!'] then none else some t
  match handle with
  | none => .ok (bare suffix)
  | some h =>
    match r.handles.lookup h with
    | some beginning => .ok (bare (beginning ++ suffix))
    | none => .error .malformed

/-- The tag of a node: none was given, or the one that leaves its form to decide, or another. -/
inductive TagGiven where
  | absent
  | byForm
  | named (tag : Tag)

namespace TagGiven

def isAbsent : TagGiven → Bool
  | absent => true
  | _ => false

def orElse (g : TagGiven) (tag : Tag) : Tag :=
  match g with
  | named t => t
  | _ => tag

def ofScalar (g : TagGiven) (plain : Bool) (t : Text) : Tag :=
  match g with
  | named tag => tag
  | byForm => .ofPlain t
  | absent => if plain then .ofPlain t else .text

end TagGiven

structure Properties where
  anchor : Option Text
  tag : TagGiven

def readTag (r : Reading) : Except Fault (TagGiven × Reading) := do
  match ← r.peek with
  | .tag handle suffix =>
    match ← r.fullTag? handle suffix with
    | some t => return (.named (.ofText t), r.next)
    | none => return (.byForm, r.next)
  | _ => return (.absent, r)

def readAnchor (r : Reading) : Except Fault (Option Text × Reading) := do
  match ← r.peek with
  | .anchor name => return (some name, r.next)
  | _ => return (none, r)

/-- Anchor and tag of a node, in either order. -/
def readProperties (r : Reading) : Except Fault (Properties × Reading) := do
  let (anchor, r) ← r.readAnchor
  let (tag, r) ← r.readTag
  match anchor, tag with
  | none, tag =>
    if tag.isAbsent then return (⟨none, tag⟩, r)
    else
      let (anchor, r) ← r.readAnchor
      return (⟨anchor, tag⟩, r)
  | anchor, tag => return (⟨anchor, tag⟩, r)

/-- Reads a node or the beginning of one. -/
def readNode (r : Reading) (block loose : Bool) : Except Fault (Event × Reading) := do
  match ← r.peek with
  | .reference name => return (.reference name, r.next)
  | _ =>
    let (p, r) ← r.readProperties
    let sequence := Event.sequenceStart p.anchor (p.tag.orElse .sequence)
    let mapping := Event.mappingStart p.anchor (p.tag.orElse .mapping)
    match ← r.peek, block, loose with
    | .blockEntry, _, true => return (sequence, r.await .looseEntry)
    | .scalar plain t, _, _ => return (.scalar p.anchor (p.tag.ofScalar plain t) t, r.next)
    | .flowSequenceStart, _, _ => return (sequence, r.next.await (.flowEntry true))
    | .flowMappingStart, _, _ => return (mapping, r.next.await (.flowKey true))
    | .blockSequenceStart, true, _ => return (sequence, r.next.await .blockEntry)
    | .blockMappingStart, true, _ => return (mapping, r.next.await .blockKey)
    | _, _, _ =>
      if p.anchor.isNone && p.tag.isAbsent then throw .malformed
      else return (.scalar p.anchor (p.tag.ofScalar true []) [], r)

/-- Directives: the version at most once and 1, each handle at most once. -/
def readDirectives (versioned : Bool) (handles : List (Text × Text)) :
    List Token → Except Fault (List (Text × Text) × List Token)
  | .directive d :: rest =>
    match d with
    | .version major =>
      if versioned || major != 1 then .error .malformed else readDirectives true handles rest
    | .handle h beginning =>
      if (handles.lookup h).isSome then .error .malformed
      else readDirectives versioned ((h, beginning) :: handles) rest
    | .other => readDirectives versioned handles rest
  | rest => .ok (handles, rest)

def readDocumentStart (r : Reading) : Except Fault (Event × Reading) := do
  let (handles, rest) ← readDirectives false [] r.tokens
  let r := { r with tokens := rest, handles := handles ++ commonHandles }
  match ← r.peek with
  | .documentStart =>
    return (.documentStart, (r.next.await .documentEnd).await .documentContent)
  | _ => throw .malformed

def isDocumentEnd : Token → Bool
  | .documentEnd => true
  | _ => false

def readDocument (r : Reading) : Except Fault (Event × Reading) := do
  let r := { r with tokens := r.tokens.dropWhile isDocumentEnd }
  match ← r.peek with
  | .streamEnd => return (.streamEnd, r.next)
  | _ => r.readDocumentStart

def step (r : Reading) (e : Expected) : Except Fault (Event × Reading) := do
  let t ← r.peek
  match e with
  | .firstDocument =>
    match t with
    | .directive _ | .documentStart | .streamEnd => r.readDocument
    | _ => return (.documentStart, (r.await .documentEnd).await .blockNode)
  | .document => r.readDocument
  | .documentContent =>
    match t with
    | .directive _ | .documentStart | .documentEnd | .streamEnd => return (empty, r)
    | _ => r.readNode true false
  | .documentEnd =>
    return (.documentEnd, (if isDocumentEnd t then r.next else r).await .document)
  | .blockNode => r.readNode true false
  | .blockEntry =>
    match t with
    | .blockEntry =>
      let r := r.next.await .blockEntry
      match ← r.peek with
      | .blockEntry | .blockEnd => return (empty, r)
      | _ => r.readNode true false
    | .blockEnd => return (.sequenceEnd, r.next)
    | _ => throw .malformed
  | .looseEntry =>
    match t with
    | .blockEntry =>
      let r := r.next.await .looseEntry
      match ← r.peek with
      | .blockEntry | .key | .value | .blockEnd => return (empty, r)
      | _ => r.readNode true false
    | _ => return (.sequenceEnd, r)
  | .blockKey =>
    match t with
    | .key =>
      let r := r.next.await .blockValue
      match ← r.peek with
      | .key | .value | .blockEnd => return (empty, r)
      | _ => r.readNode true true
    | .blockEnd => return (.mappingEnd, r.next)
    | _ => throw .malformed
  | .blockValue =>
    match t with
    | .value =>
      let r := r.next.await .blockKey
      match ← r.peek with
      | .key | .value | .blockEnd => return (empty, r)
      | _ => r.readNode true true
    | _ => return (empty, r.await .blockKey)
  | .flowEntry first =>
    match t, first with
    | .flowSequenceEnd, _ => return (.sequenceEnd, r.next)
    | .flowEntry, false => readEntry r.next
    | _, true => readEntry r
    | _, false => throw .malformed
  | .pairKey =>
    let r := r.next.await .pairValue
    match ← r.peek with
    | .value | .flowEntry | .flowSequenceEnd => return (empty, r)
    | _ => r.readNode false false
  | .pairValue =>
    match t with
    | .value =>
      let r := r.next.await .pairEnd
      match ← r.peek with
      | .flowEntry | .flowSequenceEnd => return (empty, r)
      | _ => r.readNode false false
    | _ => return (empty, r.await .pairEnd)
  | .pairEnd => return (.mappingEnd, r.await (.flowEntry false))
  | .flowKey first =>
    match t, first with
    | .flowMappingEnd, _ => return (.mappingEnd, r.next)
    | .flowEntry, false => readKey r.next
    | _, true => readKey r
    | _, false => throw .malformed
  | .flowValue =>
    match t with
    | .value =>
      let r := r.next.await (.flowKey false)
      match ← r.peek with
      | .flowEntry | .flowMappingEnd => return (empty, r)
      | _ => r.readNode false false
    | _ => return (empty, r.await (.flowKey false))
  | .noFlowValue => return (empty, r.await (.flowKey false))
where
  /-- An entry within brackets: a node, or a pair that a key begins. -/
  readEntry (r : Reading) : Except Fault (Event × Reading) := do
    match ← r.peek with
    | .key => return (.mappingStart none .mapping, r.await .pairKey)
    | .flowSequenceEnd => return (.sequenceEnd, r.next)
    | _ => (r.await (.flowEntry false)).readNode false false
  /-- A key within braces, or a node that is a key without a value. -/
  readKey (r : Reading) : Except Fault (Event × Reading) := do
    match ← r.peek with
    | .key =>
      let r := r.next.await .flowValue
      match ← r.peek with
      | .value | .flowEntry | .flowMappingEnd => return (empty, r)
      | _ => r.readNode false false
    | .flowMappingEnd => return (.mappingEnd, r.next)
    | _ => (r.await .noFlowValue).readNode false false

def run : (fuel : Nat) → Reading → Events
  | 0, _ => ⟨[], some .malformed⟩
  | fuel + 1, r =>
    match r.expected with
    | [] => ⟨[], none⟩
    | e :: expected =>
      match step { r with expected := expected } e with
      | .ok (event, r) =>
        let more := run fuel r
        ⟨event :: more.all, more.fault⟩
      | .error fault => ⟨[], some fault⟩

end Reading

namespace Events

/-- The events of tokens; each token brings about a few events at most. -/
def ofTokens (ts : Tokens) : Events := Reading.run (8 * (ts.all.length + 2)) (.start ts)

end Events

end Letterhead.Yaml
