import Letterhead.Text.Utf8

/-!
The index of a Git repository, as far as it tells which paths are tracked.

An entry is a row of facts about a file and then its name up to a zero byte. Up to version 3 more
zero bytes fill the entry up to a whole number of eights. In version 4 a name is told by how many
bytes at the end of the name before go, and by those that come in their place.
-/

namespace Letterhead.Index

/-- A number of a fixed width, highest byte first. -/
def number (bs : Bytes) : Nat := bs.foldl (fun n b => n * 256 + b.toNat) 0

/-- A number of any width, in digits of seven bits. A digit that another one follows has the top
bit set, and counts one more than it shows. -/
def digits? (above : Nat) : Bytes → Option (Nat × Bytes)
  | [] => none
  | b :: rest =>
    let n := above * 128 + b.toNat % 128
    if b.toNat < 128 then some (n, rest) else digits? (n + 1) rest

/-- How many bytes of an entry come before its name. -/
def factsLength (version : Nat) (entry : Bytes) : Nat :=
  let isLong := (entry[60]?).any fun b => b.toNat / 64 % 2 = 1
  if 3 ≤ version ∧ isLong then 64 else 62

/-- The name of the first entry, and the entries behind it. -/
def first? (version : Nat) (last bs : Bytes) : Option (Bytes × Bytes) := do
  let facts := factsLength version bs
  let (kept, rest) ←
    if version < 4 then some ([], bs.drop facts)
    else (digits? 0 (bs.drop facts)).map fun (cut, rest) => (last.take (last.length - cut), rest)
  let added := rest.takeWhile (· ≠ 0)
  if added.length = rest.length then none
  else
    let rest :=
      if version < 4 then bs.drop ((facts + added.length) / 8 * 8 + 8)
      else rest.drop (added.length + 1)
    return (kept ++ added, rest)

def names? (version : Nat) (last bs : Bytes) : (count : Nat) → Option (List Bytes)
  | 0 => some []
  | count + 1 => do
    let (name, rest) ← first? version last bs
    return name :: (← names? version name rest count)

/-- The tracked paths, from the top of the repository. -/
def paths? (bs : Bytes) : Option (List String) := do
  let version := number ((bs.drop 4).take 4)
  if bs.take 4 ≠ "DIRC".toUTF8.toList ∨ version < 2 ∨ 4 < version then none
  else
    let names ← names? version [] (bs.drop 12) (number ((bs.drop 8).take 4))
    return names.map fun name => (Utf8.decodeLossy name).toStringLossy

/-- The paths that lie in a folder, from that folder. -/
def within (folder : List String) (paths : List String) : List String :=
  let start := (String.join (folder.map (· ++ "/"))).toList
  paths.filterMap fun path =>
    if start.isPrefixOf path.toList then some (String.ofList (path.toList.drop start.length))
    else none

end Letterhead.Index
