import Letterhead.Yaml.Merge
import Letterhead.Yaml.Scalar

/-!
The value of a document.

Scalars have their values at once; what a collection holds is settled collection by collection, in
the order in which they are met. So the first fault in that order is the fault of the document.
-/

namespace Letterhead.Yaml

/-- A value whose parts are given by their places. -/
inductive Value where
  | scalar (d : Datum)
  | list (items : List Nat)
  | pairs (entries : List (Nat × Nat))
  | mapping (entries : List (Datum × Nat))
  | set (keys : List Datum)
  /-- A collection that was met but not looked into. -/
  | pending

structure Building where
  nodes : Graph.Nodes
  values : Array (Option Value)
  /-- The collections to be looked into. -/
  waiting : List Nat

namespace Building

def start (ns : Graph.Nodes) : Building := ⟨ns, Array.replicate ns.size none, []⟩

def set (b : Building) (place : Nat) (v : Value) : Building :=
  { b with values := b.values.setIfInBounds place (some v) }

/-- The text of a scalar, or of the entry that stands for a whole mapping. -/
def textAt (ns : Graph.Nodes) : (fuel place : Nat) → Except Fault Text
  | 0, _ => .error .endless
  | fuel + 1, place =>
    match Graph.contentAt? ns place with
    | some (.scalar t) => .ok t
    | some (.mapping entries) =>
      match entries.find? fun e => Graph.tagAt ns e.1 = .default with
      | some (_, value) => textAt ns fuel value
      | none => .error .malformed
    | _ => .error .malformed

def isScalar (ns : Graph.Nodes) (place : Nat) : Bool :=
  match Graph.contentAt? ns place with
  | some (.scalar _) => true
  | _ => false

/-- Meets the node at a place. -/
def visit (b : Building) (place : Nat) : Except Fault Building :=
  if (b.values[place]?.join).isSome then .ok b
  else
    match Graph.tagAt b.nodes place with
    | .sequence | .mapping | .set | .pairs =>
      .ok { b.set place .pending with waiting := b.waiting ++ [place] }
    | .merge | .default | .unknown => .error .malformed
    | tag => do
      let t ← textAt b.nodes (b.nodes.size + 1) place
      if tag = .timestamp && !isScalar b.nodes place then throw .timeNotText
      return b.set place (.scalar (← scalarValue tag t))

/-- The key at a place, which has to be a scalar. -/
def keyAt (b : Building) (place : Nat) : Except Fault Datum :=
  match b.values[place]?.join with
  | some (.scalar d) => .ok d
  | _ => .error .malformed

/-- Two keys are the same: numbers are compared by their values, whatever their kinds. -/
def sameKey (x y : Datum) : Bool :=
  match number? x, number? y with
  | some a, some b => a = b
  | none, none =>
    match x, y with
    | .null, .null => true
    | .float a, .float b => a = b
    | .text s, .text t => s = t
    | .bytes s, .bytes t => s = t
    | .moment s, .moment t => s = t
    | _, _ => false
  | _, _ => false
where
  /-- A whole number, or a quotient in its lowest terms. -/
  number? : Datum → Option (Int × Nat)
    | .bool b => some (if b then 1 else 0, 1)
    | .int i => some (i, 1)
    | .float x => x.ratio?.map fun (num, den) =>
      let g := Nat.gcd num den
      (x.signed (num / g), den / g)
    | _ => none

/-- A later entry with the same key takes the place of the earlier, which keeps its key. -/
def put (entries : List (Datum × Nat)) (key : Datum) (value : Nat) : List (Datum × Nat) :=
  if entries.any (sameKey key ·.1) then
    entries.map fun e => if sameKey key e.1 then (e.1, value) else e
  else entries ++ [(key, value)]

/-- Meets keys and values in turn. -/
def visitEntries (b : Building) (entries : List (Nat × Nat)) :
    Except Fault (List (Datum × Nat) × Building) :=
  entries.foldlM
    (fun (found, b) (key, value) => do
      let b ← b.visit key
      let k ← b.keyAt key
      let b ← b.visit value
      return (put found k value, b))
    ([], b)

/-- The only entry of a mapping. -/
def onlyEntry (ns : Graph.Nodes) (place : Nat) : Except Fault (Nat × Nat) :=
  match Graph.entriesAt? ns place with
  | some [e] => .ok e
  | _ => .error .malformed

/-- Meets pairs, each of which is a mapping with one entry. -/
def visitPairs (b : Building) (items : List Nat) :
    Except Fault (List (Nat × Nat) × Building) :=
  items.foldlM
    (fun (found, b) item => do
      let (key, value) ← onlyEntry b.nodes item
      let b ← (← b.visit key).visit value
      return (found ++ [(key, value)], b))
    ([], b)

/-- Looks into the mapping at a place. -/
def lookIntoMapping (b : Building) (place : Nat) :
    Except Fault (List (Datum × Nat) × Building) := do
  if (Graph.entriesAt? b.nodes place).isNone then throw .malformed
  let b := { b with nodes := ← Graph.merge b.nodes place }
  b.visitEntries ((Graph.entriesAt? b.nodes place).getD [])

/-- Looks into the collection at a place. -/
def lookInto (b : Building) (place : Nat) : Except Fault Building := do
  match Graph.tagAt b.nodes place, Graph.contentAt? b.nodes place with
  | .sequence, some (.sequence items) =>
    return (← items.foldlM visit b).set place (.list items)
  | .pairs, some (.sequence items) =>
    let (entries, b) ← b.visitPairs items
    return b.set place (.pairs entries)
  | .mapping, _ =>
    let (entries, b) ← b.lookIntoMapping place
    return b.set place (.mapping entries)
  | .set, _ =>
    let (entries, b) ← b.lookIntoMapping place
    return b.set place (.set (entries.map (·.1)))
  | _, _ => throw .malformed

/-- Looks into collections until none is waiting; each waits once at most. -/
def finish : (fuel : Nat) → Building → Except Fault Building
  | 0, b => .ok b
  | fuel + 1, b =>
    match b.waiting with
    | [] => .ok b
    | place :: rest => do
      let b ← lookInto { b with waiting := rest } place
      finish fuel b

end Building

namespace Value

/-- The value, with its parts taken from a table. -/
def fill (table : Array Datum) : Value → Datum
  | scalar d => d
  | list items => .list (items.map part)
  | pairs entries => .list (entries.map fun (k, v) => .list [part k, part v])
  | mapping entries => .mapping (entries.map fun (k, v) => (k, part v))
  | set keys => .list keys
  | pending => .null
where
  part (place : Nat) : Datum := table[place]?.getD .null

/-- The values of all nodes down to a depth, below which there is nothing. A node that is a part
of many is written out once for each depth. -/
def table (values : Array (Option Value)) : (depth : Nat) → Array Datum
  | 0 => #[]
  | depth + 1 =>
    let below := table values depth
    values.map fun v => (v.map (fill below)).getD .null

end Value

/-- How deep the value of a document is looked into; settings lie no deeper. -/
def depth : Nat := 8

/-- The value of the nodes of a document. -/
def Graph.toDatum (g : Graph) : Except Fault Datum :=
  match g.root with
  | none => .ok .null
  | some root => do
    let b ← (← (Building.start g.nodes).visit root).finish (g.nodes.size + 1)
    return ((Value.table b.values depth)[root]?).getD .null

/-- A carriage return, alone or with a line feed behind it, is a line feed. -/
def unifyBreaks : Text → Text
  | [] => []
  | [c] => [if c.is '\r' then CodePoint.ofChar '\n' else c]
  | c :: d :: rest =>
    if c.is '\r' then
      if d.is '\n' then unifyBreaks (d :: rest)
      else CodePoint.ofChar '\n' :: unifyBreaks (d :: rest)
    else c :: unifyBreaks (d :: rest)

/-- The value of a document in a text. -/
def read (t : Text) : Except Fault Datum := do
  (← Graph.ofText (unifyBreaks t)).toDatum

end Letterhead.Yaml
