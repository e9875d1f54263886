import Letterhead.Tree.Walk

/-!
The files that a Git repository tracks, and how Git lists them.
-/

namespace Letterhead

/-- Files, and a run among them. The folder of the run may be the top of a repository that tracks
some of the files in it. -/
structure Project where
  tree : Tree
  /-- The tracked paths, from the folder of the run on, if there is a repository. -/
  tracked : Option (List String)

namespace Project

/-! Listing. -/

/-- A byte of a name as Git shows it in quotes; nothing if it stays as it is. -/
def escape? (b : UInt8) : Option (List Char) :=
  let n := b.toNat
  match [(7, 'a'), (8, 'b'), (9, 't'), (10, 'n'), (11, 'v'), (12, 'f'), (13, 'r'), (34, '"'),
      (92, '\\')].lookup n with
  | some c => some ['\\', c]
  | none =>
    if n < 32 ∨ 127 ≤ n then
      let digit (k : Nat) := Char.ofNat (48 + n / k % 8)
      some ['\\', digit 64, digit 8, digit 1]
    else none

/-- A name, in quotes if it has characters that cannot stand as they are. -/
def quotedName (name : String) : String :=
  let bs := name.toUTF8.toList
  if bs.all fun b => (escape? b).isNone then name
  else
    String.ofList
      ('"' :: bs.flatMap (fun b => (escape? b).getD [Char.ofNat b.toNat]) ++ ['"'])

/-- A pattern of names, where a star is any text and a question mark any character. -/
def fits : List Char → List Char → Bool
  | [], [] => true
  | [], _ :: _ => false
  | '*' :: ps, [] => fits ps []
  | '*' :: ps, c :: cs => fits ps (c :: cs) || fits ('*' :: ps) cs
  | '?' :: ps, _ :: cs => fits ps cs
  | '\\' :: p :: ps, c :: cs => p == c && fits ps cs
  | p :: ps, c :: cs => p == c && fits ps cs
  | _ :: _, [] => false
termination_by ps cs => ps.length + cs.length

/-- The path is the one asked for, lies below it, or fits it as a pattern. -/
def isCovered (spec path : String) : Bool :=
  let s := spec.toList
  let p := path.toList
  s.isEmpty || s = p || ((if endsIn spec "/" then s else s ++ ['/']).isPrefixOf p) || fits s p

/-- Names with each pair of points taken against the name before it, if there always is one. -/
def collapse? (names : List String) : Option (List String) :=
  (names.foldl
    (fun above name => above.bind fun above =>
      if name = ".." then above.head?.map fun _ => above.tail else some (name :: above))
    (some [])).map List.reverse

/-- How many links Git follows on its way to a folder. -/
def gitLinkLimit : Nat := 21

/-- The names that come behind the folder of the run, or else behind the first link to it. -/
def behindBase? (t : Tree) (names : List String) : Option (List String) :=
  if t.base.isPrefixOf names then some (names.drop t.base.length)
  else
    let leadsToBase (n : Nat) :=
      match t.follow true gitLinkLimit [] (names.take (n + 1)) with
      | .ok l => l == t.base
      | .error _ => false
    ((List.range names.length).find? leadsToBase).map fun n => names.drop (n + 1)

/-- The text of a path as Git takes it, within the repository. -/
def spec? (t : Tree) (path : String) : Option String := do
  if path = "" then none
  let names ← collapse? (Path.ofString path).names
  let names ← if Tree.isAbsolute path then behindBase? t names else some names
  let spec := "/".intercalate names
  return if endsIn path "/" && spec ≠ "" then spec ++ "/" else spec

/-- The listing of the tracked files at a path, if there is one. -/
def trackedAt? (p : Project) (path : String) : Option (List String) := do
  let tracked ← p.tracked
  let spec ← spec? p.tree path
  return ((tracked.filter (isCovered spec)).mergeSort Tree.isBefore).map quotedName

/-! Tracking. -/

mutual

/-- All entries that are no folders, by their paths. -/
def allPaths (above : List String) : Tree.Entry → List String
  | .folder children => allPathsIn above children
  | _ => ["/".intercalate above]

def allPathsIn (above : List String) : List (String × Tree.Entry) → List String
  | [] => []
  | (name, e) :: rest =>
    (if name = Tree.hidden then [] else allPaths (above ++ [name]) e) ++ allPathsIn above rest

end

/-- Tracks the files at paths as they are now. -/
def track (p : Project) (paths : List String) : Project :=
  let specs := paths.filterMap (spec? p.tree)
  let covered (path : String) := specs.any (isCovered · path)
  let old := (p.tracked.getD []).filter (!covered ·)
  let here := (p.tree.at? p.tree.base).elim [] Tree.Entry.children
  { p with tracked := some (old ++ (allPathsIn [] here).filter covered) }

end Project

end Letterhead
