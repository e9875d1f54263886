import Letterhead.Tree.Locate

/-!
Replacing a file as a whole.

The new content is written into a file of its own beside the old one, gets the old one's mode, and
then takes its name. If a step fails, the file of its own is taken away again, so that the tree is
as it was before.
-/

namespace Letterhead

namespace Tree

/-- The steps in which a file is replaced. -/
inductive ReplaceStep where
  | create
  | fill
  | copyMode
  | rename
deriving DecidableEq

/-- The mode of a file that was just made. -/
def newMode : Nat := 0o600

mutual

/-- The names that the links of an entry go through. -/
def Entry.linkNames : Entry → List String
  | .file _ _ => []
  | .link target => steps target
  | .folder children => Entry.linkNamesIn children

def Entry.linkNamesIn : List (String × Entry) → List String
  | [] => []
  | (_, e) :: rest => Entry.linkNames e ++ Entry.linkNamesIn rest

end

/-- A name that is not in use. -/
def freeName (used : List String) : String :=
  let candidate (n : Nat) := ".letterhead-" ++ Nat.repr n
  let names := (List.range (used.length + 1)).map candidate
  (names.find? (· ∉ used)).getD (candidate 0)

/-- The names that lead from the top to a path by its text. -/
def namesFromTop (top : Tree) (path : String) : List String :=
  Path.collapse (origin path top.base ++ (Path.ofString path).names)

/-- The location of the folder in which a path lies by its text. -/
def folderOf (top : Tree) (path : String) : Except IoError Location :=
  top.follow true linkLimit [] ((top.namesFromTop path).dropLast ++ ["."])

/-- Makes an empty file in the folder of a path, and gives its location. No entry there has its
name, and neither a path nor a link goes by it. -/
def createBeside (top : Tree) (path : String) : Except IoError (Location × Tree) := do
  let here ← top.folderOf path
  match top.at? here with
  | some (.folder children) =>
    let used := children.map (·.1) ++ top.base ++ steps path ++ top.top.linkNames
    let l := here ++ [freeName used]
    return (l, top.put l (.file [] newMode))
  | _ => throw .notDirectory

/-- Gives a file the mode of the one that a path leads to. -/
def copyMode (top : Tree) (path : String) (l : Location) (data : Bytes) : Except IoError Tree := do
  return top.put l (.file data (← top.modeAt path))

/-- Moves the file at a location to a path, where it replaces a file or a link. -/
def moveTo (top : Tree) (l : Location) (path : String) : Except IoError Tree := do
  if endsIn path "/" then throw .notDirectory
  let target ← top.locate path false
  match top.at? l, top.at? target with
  | some moved, some (.file _ _) => return (top.remove l).put target moved
  | some moved, some (.link _) => return (top.remove l).put target moved
  | _, some (.folder _) => throw .isDirectory
  | _, _ => throw .notFound

/-- A step, unless something outside the tree keeps it from happening. -/
def attempt {α : Type} (outside : ReplaceStep → Option IoError) (step : ReplaceStep)
    (run : Except IoError α) : Except IoError α :=
  match outside step with
  | some e => .error e
  | none => run

/-- Replaces the file at a path. The tree that is given back is the one after the clean-up. -/
def replaceFile (top : Tree) (path : String) (data : Bytes)
    (outside : ReplaceStep → Option IoError) : Except IoError Unit × Tree :=
  match attempt outside .create (top.createBeside path) with
  | .error e => (.error e, top)
  | .ok (l, made) =>
    let finish : Except IoError Tree := do
      let filled ← attempt outside .fill (.ok (made.put l (.file data newMode)))
      let moded ← attempt outside .copyMode (filled.copyMode path l data)
      attempt outside .rename (moded.moveTo l path)
    match finish with
    | .ok t => (.ok (), t)
    | .error e => (.error e, made.remove l)

end Tree

end Letterhead
