import Letterhead.Yaml.Node

/-!
Entries that a mapping takes over from others.

The value of a merge key is a mapping or a list of mappings. Their entries come before those of
the mapping itself, the last of the list first, so that of two entries with one key the one closer
to the mapping is the later.
-/

namespace Letterhead.Yaml

namespace Graph

abbrev Nodes := Array Node

def tagAt (ns : Nodes) (place : Nat) : Tag := (ns[place]?.map (·.tag)).getD .unknown

def contentAt? (ns : Nodes) (place : Nat) : Option Content :=
  (ns[place]?).map fun (n : Node) => n.content

def entriesAt? (ns : Nodes) (place : Nat) : Option (List (Nat × Nat)) :=
  match contentAt? ns place with
  | some (.mapping entries) => some entries
  | _ => none

def setEntries (ns : Nodes) (place : Nat) (entries : List (Nat × Nat)) : Nodes :=
  ns.modify place fun n => { n with content := .mapping entries }

def setTag (ns : Nodes) (place : Nat) (tag : Tag) : Nodes :=
  ns.modify place fun n => { n with tag := tag }

/-- The mappings that a merge key with a value at a place asks for. -/
def sources (ns : Nodes) (place : Nat) : Except Fault (List Nat) :=
  match contentAt? ns place with
  | some (.mapping _) => .ok [place]
  | some (.sequence items) =>
    if items.all fun i => (entriesAt? ns i).isSome then .ok items else .error .malformed
  | _ => .error .malformed

mutual

/-- Takes over the entries for the merge keys from an index on; `taken` are those so far. -/
def mergeFrom : (fuel place index : Nat) → (taken : List (Nat × Nat)) → Nodes → Except Fault Nodes
  | 0, _, _, _, _ => .error .endless
  | fuel + 1, place, index, taken, ns =>
    let entries := (entriesAt? ns place).getD []
    match entries[index]? with
    | none => .ok (setEntries ns place (taken ++ entries))
    | some (key, value) =>
      match tagAt ns key with
      | .merge => do
        let ns := setEntries ns place (entries.eraseIdx index)
        let (groups, ns) ← mergeAll fuel (← sources ns value) ns
        mergeFrom fuel place index (taken ++ groups.reverse.flatten) ns
      | .default => mergeFrom fuel place (index + 1) taken (setTag ns key .text)
      | _ => mergeFrom fuel place (index + 1) taken ns

/-- Merges within mappings, and gives the entries of each. -/
def mergeAll : (fuel : Nat) → List Nat → Nodes → Except Fault (List (List (Nat × Nat)) × Nodes)
  | 0, _, _ => .error .endless
  | _ + 1, [], ns => .ok ([], ns)
  | fuel + 1, place :: rest, ns => do
    let ns ← mergeFrom fuel place 0 [] ns
    let entries := (entriesAt? ns place).getD []
    let (groups, ns) ← mergeAll fuel rest ns
    return (entries :: groups, ns)

end

/-- How many entries there are in all mappings. -/
def countEntries (ns : Nodes) : Nat :=
  ns.foldl (fun n node => match node.content with
    | .mapping entries => n + entries.length
    | .sequence items => n + items.length
    | .scalar _ => n) 0

/-- Merges within the mapping at a place. -/
def merge (ns : Nodes) (place : Nat) : Except Fault Nodes :=
  mergeFrom ((ns.size + 2) * (countEntries ns + 2)) place 0 [] ns

end Graph

end Letterhead.Yaml
