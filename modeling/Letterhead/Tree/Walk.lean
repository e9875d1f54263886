import Letterhead.Tree.Locate

/-!
All files below a folder.

The files of a folder come first, in the order of their names, and then those of its folders, in
the order of these. A link to a folder is not gone through, and is no file either; any other link
is a file.
-/

namespace Letterhead

namespace Tree

/-- The folder whose content is not among the files. -/
def hidden : String := ".git"

def isBefore (a b : String) : Bool := a ≤ b

/-- The entry of this name in the folder at a location counts as a file. -/
def countsAsFile (top : Tree) (here : Location) (name : String) : Entry → Bool
  | .file _ _ => true
  | .folder _ => false
  | .link _ =>
    match (top.follow true linkLimit here [name]).toOption.bind (top.at? ·) with
    | some (.folder _) => false
    | _ => true

/-- The names of the files in the folder at a location. -/
def fileNames (top : Tree) (here : Location) (children : List (String × Entry)) : List String :=
  ((children.filter fun c => top.countsAsFile here c.1 c.2).map (·.1)).mergeSort isBefore

mutual

/-- The locations of the files in a folder at a location. -/
def filesIn (top : Tree) (here : Location) : Entry → List Location
  | .folder children =>
    (top.fileNames here children).map (fun name => here ++ [name]) ++
      ((foldersIn top here children).mergeSort fun a b => isBefore a.1 b.1).flatMap (·.2)
  | _ => []

/-- The folders among some entries, each with the locations of its files. -/
def foldersIn (top : Tree) (here : Location) :
    List (String × Entry) → List (String × List Location)
  | [] => []
  | (name, e) :: rest =>
    if e.isFolder && name ≠ hidden then
      (name, filesIn top (here ++ [name]) e) :: foldersIn top here rest
    else foldersIn top here rest

end

/-- The paths of the files below a path that leads to a folder. -/
def filesBelow (top : Tree) (path : String) (here : Location) : List String :=
  match top.at? here with
  | some e => (filesIn top here e).map fun l => Path.below path (l.drop here.length)
  | none => []

/-- The files at a path: the one it leads to, or all below the folder it leads to. Nothing if it
leads nowhere. -/
def filesAt? (top : Tree) (path : String) : Except IoError (Option (List String)) :=
  let path := (Path.ofString path).toString
  match top.locate path with
  | .ok here =>
    match top.at? here with
    | some (.file _ _) => .ok (some [path])
    | some (.folder _) => .ok (some (top.filesBelow path here))
    | _ => .ok none
  | .error .nameTooLong => .error .nameTooLong
  | .error _ => .ok none

end Tree

end Letterhead
