import Letterhead.Host
import Letterhead.Template.Format
import Letterhead.Template.Segment

/-!
Expanding a template: each field becomes the text of the value it names.

Segments are taken from left to right and the first fault wins. A format may hold fields of its
own, one level deep.
-/

namespace Letterhead.Template

/-- What the fields of a template stand for. -/
structure Environment where
  host : Host
  values : List (String × Value)

/-- One step from a value to a part of it. -/
inductive Access where
  | member (name : List Char)
  | item (name : List Char)

namespace Access

/-- Reads a member's name, up to the next mark. -/
def readMember : List Char → List Char × List Char
  | [] => ([], [])
  | c :: rest =>
    if c = '.' ∨ c = '[' then ([], c :: rest)
    else
      let (name, rest) := readMember rest
      (c :: name, rest)

/-- Reads an item's name and drops the bracket behind it. -/
def readItem : List Char → Option (List Char × List Char)
  | [] => none
  | c :: rest => if c = ']' then some ([], rest) else (readItem rest).map fun (n, r) => (c :: n, r)

/-- Reads one step, or the fault there; `rest` is what follows the mark. -/
def read (mark : Char) (rest : List Char) : Except Malformed (Access × List Char) := do
  if mark = '.' then
    let (name, rest) := readMember rest
    if name.isEmpty then throw .emptyName
    return (.member name, rest)
  else if mark = '[' then
    match readItem rest with
    | none => throw .unclosedBracket
    | some (name, rest) =>
      if name.isEmpty then throw .emptyName
      return (.item name, rest)
  else throw .junkBehindBracket

end Access

/-- The number that a name spells, if it is made of decimal digits only. -/
def index? (name : List Char) : Except Malformed (Option Nat) :=
  let t := Text.ofChars name
  if t.isEmpty then .ok none
  else
    match t.mapM CodePoint.digitValue? with
    | some ds => (Spec.decimal ds).map some
    | none => .ok none

/-- A named member of a value. -/
def member (host : Host) (v : Value) (name : List Char) : Except Fault Value :=
  let name := String.ofList name
  let whole (i : Int) : Option Value :=
    if name = "real" ∨ name = "numerator" then some (.int i)
    else if name = "imag" then some (.int 0)
    else if name = "denominator" then some (.int 1)
    else none
  let own := match v with
    | .int i => whole i
    | .bool b => whole (if b then 1 else 0)
    | .type k => if name = "__name__" then some (.text k.name) else none
    | _ => none
  match own with
  | some w => .ok w
  | none =>
    if name = "__class__" then .ok (.type v.kindOf)
    else
      match host.member? v name with
      | some w => .ok w
      | none => .error (.noAttribute v.owner name)

/-- An item of a value. -/
def item (v : Value) (name : List Char) : Except Fault Value := do
  let index ← (index? name).mapError .malformed
  match v, index with
  | .text t, some i =>
    match t[i]? with
    | some c => .ok (.text [c])
    | none => .error (.outOfRange .text)
  | .list vs, some i =>
    match vs[i]? with
    | some w => .ok w
    | none => .error (.outOfRange .list)
  | .mapping _, some i => .error (.missingIndex i)
  | .mapping es, none =>
    match es.lookup (String.ofList name) with
    | some w => .ok w
    | none => .error (.missingName (String.ofList name))
  | _, _ => .error .unsupported

/-- Follows the steps of a name from a value, `fuel` of them at most. -/
def follow (host : Host) (v : Value) : (fuel : Nat) → List Char → Except Fault Value
  | _, [] => .ok v
  | 0, _ => .ok v
  | fuel + 1, mark :: rest => do
    let (step, rest) ← (Access.read mark rest).mapError .malformed
    let w ← match step with
      | .member name => member host v name
      | .item name => item v name
    follow host w fuel rest

/-- The value that a field's name leads to. -/
def lookUp (env : Environment) (name : List Char) : Except Fault Value := do
  let first := name.takeWhile fun c => c != '.' && c != '['
  let rest := name.dropWhile fun c => c != '.' && c != '['
  let index ← (index? first).mapError .malformed
  if first.isEmpty ∨ index.isSome then throw (.malformed .positional)
  match env.values.lookup (String.ofList first) with
  | none => throw (.missingName (String.ofList first))
  | some v => follow env.host v rest.length rest

def convert (v : Value) : Option Char → Except Fault Value
  | none => .ok v
  | some 's' => .ok (.text v.plain)
  | some 'r' => .ok (.text (v.quoted Quoted.printable))
  | some 'a' =>
    let quoted := v.quoted Quoted.printable
    -- what is not ASCII outside the quotes is nowhere, so one pass over the whole will do
    .ok (.text (quoted.flatMap fun c => if c.val < 128 then [c] else Quoted.numeric c))
  | some c => .error (.malformed (.unknownConversion c))

/-- Expands segments, and the formats in them to the given depth. -/
def expandSegments (env : Environment) : (depth : Nat) → List Segment → Except Fault Text
  | _, [] => .ok []
  | depth, .literal t :: segs => do
    return Text.ofChars t ++ (← expandSegments env depth segs)
  | _, .broken m :: _ => .error (.malformed m)
  | 0, .field f :: segs => do
    let v ← convert (← lookUp env f.name) f.conversion
    if f.spec.contains '\x7b' then throw (.malformed .tooDeep)
    return (← format env.host.room v (Text.ofChars f.spec)) ++ (← expandSegments env 0 segs)
  | depth + 1, .field f :: segs => do
    let v ← convert (← lookUp env f.name) f.conversion
    let spec ←
      if f.spec.contains '\x7b' then expandSegments env depth (segments f.spec)
      else pure (Text.ofChars f.spec)
    return (← format env.host.room v spec) ++ (← expandSegments env (depth + 1) segs)
termination_by depth segs => (depth, segs.length)

def expand (env : Environment) (template : String) : Except Fault Text :=
  expandSegments env 1 (segments template.toList)

end Letterhead.Template
