import Letterhead.Tree.Basic

/-!
Following a path to a location, and reading what is there.
-/

namespace Letterhead

/-- How many links may be followed on the way. -/
def linkLimit : Nat := 40

/-- How many bytes a name may have. -/
def nameLimit : Nat := 255

namespace Tree

/-- The names to go through for a path; a slash at the end asks for a folder, as a point does. -/
def steps (path : String) : List String :=
  Path.parts path ++ if endsIn path "/" then ["."] else []

def isAbsolute (path : String) : Bool := path.toList.head? == some '/'

/-- Where a path starts that is met in the folder at a location. -/
def origin (path : String) (here : Location) : Location := if isAbsolute path then [] else here

/-- Goes on from the folder at a location. A link at the very end is followed if that is asked for.
Above the top of the tree is the top. -/
def follow (top : Tree) (last : Bool) (links : Nat) (here : Location) :
    List String → Except IoError Location
  | [] => .ok here
  | name :: rest =>
    if name = "." then follow top last links here rest
    else if name = ".." then follow top last links here.dropLast rest
    else if nameLimit < name.utf8ByteSize then .error .nameTooLong
    else
      match top.at? (here ++ [name]) with
      | none => .error .notFound
      | some (.folder _) => follow top last links (here ++ [name]) rest
      | some (.file _ _) => if rest.isEmpty then .ok (here ++ [name]) else .error .notDirectory
      | some (.link target) =>
        if rest.isEmpty && !last then .ok (here ++ [name])
        else
          match links with
          | 0 => .error .tooManyLinks
          | links + 1 => follow top last links (origin target here) (steps target ++ rest)
termination_by names => (links, names.length)

/-- The location that a path leads to. -/
def locate (top : Tree) (path : String) (last : Bool := true) : Except IoError Location :=
  if path = "" then .error .notFound
  else follow top last linkLimit (origin path top.base) (steps path)

/-- The entry that a path leads to, which is no link. -/
def find? (top : Tree) (path : String) : Except IoError Entry := do
  match top.at? (← top.locate path) with
  | some e => return e
  | none => throw .notFound

def read (top : Tree) (path : String) : Except IoError Bytes := do
  match ← top.find? path with
  | .file data _ => return data
  | .folder _ => throw .isDirectory
  | .link _ => throw .notFound

/-- The mode of folders. -/
def folderMode : Nat := 0o755

def modeAt (top : Tree) (path : String) : Except IoError Nat := do
  match ← top.find? path with
  | .file _ mode => return mode
  | _ => return folderMode

end Tree

end Letterhead
