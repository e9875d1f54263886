import Letterhead.Command.Execute
import Letterhead.Tree.Index
import Std.Time.Zoned

/-!
The program.

It takes the folder in which it is started as the project, carries out its command line, prints the
answer, and writes the files that are no longer as they were. The folders above are there, but
nothing else is in them.
-/

namespace Letterhead.Command

/-- The place of a path outside the library's own trees. -/
def placeOf (path : String) := (· / path) <$> IO.currentDir

/-- An entry whose content is out of reach: no name has a zero in it. -/
def unreachable : Tree.Entry := .link "\x00"

/-- The mode that stands for any: files are written in place, so that they keep theirs. -/
def anyMode : Nat := 0o644

def fileAt (path : String) : IO Tree.Entry := do
  try return .file (← IO.FS.readBinFile path).toList anyMode
  catch _ => return unreachable

/-- A link as the way from its folder to where it leads in the end. What is out of the project is a
file of its own, or a folder that counts for nothing. -/
def linkAt (path : String) (depth : Nat) : IO Tree.Entry := do
  try
    let top := (← IO.FS.realPath ".").toString ++ "/"
    let target := (← IO.FS.realPath path).toString
    if top.toList.isPrefixOf (target ++ "/").toList then
      let way := String.ofList (target.toList.drop top.length)
      return .link (String.join (List.replicate depth "../") ++ if way = "" then "." else way)
    else if ← (← placeOf path).isDir then return .link "."
    else fileAt path
  catch _ => return unreachable

/-- What lies in the folder at a path. -/
partial def childrenAt (path : String) (depth : Nat) : IO (List (String × Tree.Entry)) := do
  let mut children := []
  for entry in ← (← placeOf path).readDir do
    let name := entry.fileName
    let inner := Path.child path name
    let e ← match (← entry.path.symlinkMetadata).type with
      | .dir => if name = Tree.hidden then continue else .folder <$> childrenAt inner (depth + 1)
      | .file => fileAt inner
      | .symlink => linkAt inner depth
      | .other => continue
    children := (name, e) :: children
  return children.reverse

/-- A folder with nothing around it but the folders above. -/
def treeIn (base : Location) (children : List (String × Tree.Entry)) : Tree :=
  let top := Tree.Entry.empty.put base (.folder children)
  if h : (top.at? base).any Tree.Entry.isFolder = true then ⟨top, base, h⟩ else .ofFolder children

/-- What the repository around this folder tracks in it, if there is one. -/
def tracked? : IO (Option (List String)) := do
  let names := Path.parts (← IO.currentDir).toString
  for up in List.range (names.length + 1) do
    let repository := String.join (List.replicate up "../") ++ Tree.hidden
    if ← (← placeOf repository).pathExists then
      let index := Path.child repository "index"
      if ← (← placeOf index).pathExists then
        let paths := Index.paths? (← IO.FS.readBinFile index).toList
        return paths.map (Index.within (names.drop (names.length - up)))
      return some []
  return none

def projectHere : IO Project := do
  let base := Path.parts (← IO.currentDir).toString
  return ⟨treeIn base (← childrenAt "." 0), ← tracked?⟩

/-- The command line asks for something that needs the files. -/
def needsFiles (args : List String) : Bool :=
  match Request.ofArguments args with
  | .perform .version _ => false
  | .perform _ _ => true
  | _ => false

/-- Writes a file, in place of a link if there is one. -/
def writeFile (path : String) (data : Bytes) : IO Unit := do
  if (← (← placeOf path).symlinkMetadata).type == .symlink then IO.FS.removeFile path
  IO.FS.writeBinFile path ⟨data.toArray⟩

/-- Writes the files that are not as they were before. -/
partial def writeChanges (path : String) (old new : Tree.Entry) : IO Unit := do
  match old, new with
  | .file a _, .file b _ => if a ≠ b then writeFile path b
  | _, .file b _ => writeFile path b
  | _, .folder children =>
    for (name, child) in children do
      writeChanges (Path.child path name) ((old.child? name).getD .empty) child
  | _, .link _ => return

end Letterhead.Command

open Letterhead Command in
def main (args : List String) : IO UInt32 := do
  let project ← if needsFiles args then projectHere else pure ⟨.empty, none⟩
  let year := (← Std.Time.PlainDate.now).year
  let configVariable ← IO.getEnv Settings.pathVariable
  let obstacles : Obstacles := ⟨fun _ _ => none, fun path e => e.message path⟩
  let (answer, after) := execute ⟨year, configVariable, obstacles⟩ args project
  let here (t : Tree) := (t.at? t.base).getD .empty
  writeChanges "." (here project.tree) (here after.tree)
  match answer with
  | .ok a =>
    IO.print a.output
    return UInt32.ofNat a.exit
  | .error _ =>
    IO.eprintln "The run ended before all files were done."
    return 1
