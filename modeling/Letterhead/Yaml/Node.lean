import Letterhead.Yaml.Event
import Letterhead.Yaml.Token.Scan

/-!
A document as a table of nodes.

A collection holds its parts by their places in the table, so a node that is referred to more than
once, or from within itself, is still one node.
-/

namespace Letterhead.Yaml

inductive Content where
  | scalar (text : Text)
  | sequence (items : List Nat)
  | mapping (entries : List (Nat × Nat))

structure Node where
  tag : Tag
  content : Content

/-- The nodes of a document and the place of the outermost, unless there is no document. -/
structure Graph where
  nodes : Array Node
  root : Option Nat

/-- A collection of which not all parts are known. -/
structure Unfinished where
  place : Nat
  /-- The parts so far, last one first. -/
  parts : List Nat

structure Composing where
  nodes : Array Node
  anchors : List (Text × Nat)
  /-- The collections that are open, innermost first. -/
  unfinished : List Unfinished
  root : Option Nat

namespace Composing

def start : Composing := ⟨#[], [], [], none⟩

/-- The node at a place is a part of the innermost collection, or the outermost node. -/
def deliver (c : Composing) (place : Nat) : Composing :=
  match c.unfinished with
  | u :: rest => { c with unfinished := { u with parts := place :: u.parts } :: rest }
  | [] => { c with root := some place }

/-- Takes up a new node. No two nodes have the same anchor. -/
def add (c : Composing) (anchor : Option Text) (n : Node) : Except Fault (Nat × Composing) :=
  let place := c.nodes.size
  let d := { c with nodes := c.nodes.push n }
  match anchor with
  | none => .ok (place, d)
  | some name =>
    if (c.anchors.lookup name).isSome then .error .malformed
    else .ok (place, { d with anchors := (name, place) :: c.anchors })

/-- How many collections may be open at once. -/
def nestingLimit : Nat := 488

def begin (c : Composing) (anchor : Option Text) (n : Node) : Except Fault Composing := do
  if nestingLimit ≤ c.unfinished.length then throw .endless
  let (place, c) ← c.add anchor n
  return { c with unfinished := ⟨place, []⟩ :: c.unfinished }

/-- Keys and values in turn. -/
def pairUp : List Nat → List (Nat × Nat)
  | key :: value :: rest => (key, value) :: pairUp rest
  | _ => []

/-- Closes the innermost collection. -/
def close (c : Composing) (content : List Nat → Content) : Composing :=
  match c.unfinished with
  | u :: rest =>
    let nodes := c.nodes.modify u.place fun n => { n with content := content u.parts.reverse }
    deliver { c with nodes := nodes, unfinished := rest } u.place
  | [] => c

def step (c : Composing) : Event → Except Fault Composing
  | .reference name =>
    match c.anchors.lookup name with
    | some place => .ok (c.deliver place)
    | none => .error .malformed
  | .scalar anchor tag text => do
    let (place, c) ← c.add anchor ⟨tag, .scalar text⟩
    return c.deliver place
  | .sequenceStart anchor tag => c.begin anchor ⟨tag, .sequence []⟩
  | .mappingStart anchor tag => c.begin anchor ⟨tag, .mapping []⟩
  | .sequenceEnd => .ok (c.close .sequence)
  | .mappingEnd => .ok (c.close fun parts => .mapping (pairUp parts))
  | .documentStart => if c.root.isSome then .error .malformed else .ok c
  | .documentEnd => .ok c
  | .streamEnd => .ok c

end Composing

namespace Graph

/-- The graph of events, which have to be complete. -/
def ofEvents (es : Events) : Except Fault Graph := do
  let c ← es.all.foldlM Composing.step .start
  match es.fault with
  | some f => throw f
  | none => return ⟨c.nodes, c.root⟩

/-- The graph of a text. -/
def ofText (t : Text) : Except Fault Graph := ofEvents (.ofTokens (.ofText t))

end Graph

end Letterhead.Yaml
