import Letterhead.Path
import Letterhead.Text.Quoted
import Letterhead.Text.Utf8

/-!
A tree of files.

A location is the row of names that leads to an entry from the top, through folders only. What
stands where is told by `at?`; `put` and `remove` change one location and what lies below it. A run
takes place in one folder of the tree, in which paths start that do not start at the top.
-/

namespace Letterhead

/-- What stands somewhere, with all that lies below it. -/
inductive Tree.Entry where
  | file (data : Bytes) (mode : Nat)
  | link (target : String)
  | folder (children : List (String × Tree.Entry))

abbrev Location := List String

/-- Why nothing can be done at a path. -/
inductive IoError where
  | notFound
  | denied
  | notDirectory
  | isDirectory
  | nameTooLong
  | tooManyLinks
deriving DecidableEq

namespace IoError

def number : IoError → Nat
  | notFound => 2
  | denied => 13
  | notDirectory => 20
  | isDirectory => 21
  | nameTooLong => 36
  | tooManyLinks => 40

def text : IoError → String
  | notFound => "No such file or directory"
  | denied => "Permission denied"
  | notDirectory => "Not a directory"
  | isDirectory => "Is a directory"
  | nameTooLong => "File name too long"
  | tooManyLinks => "Too many levels of symbolic links"

def message (e : IoError) (path : String) : String :=
  "[Errno " ++ Nat.repr e.number ++ "] " ++ e.text ++ ": " ++ Quoted.string path

end IoError

namespace Tree.Entry

def empty : Entry := folder []

def isFolder : Entry → Bool
  | folder _ => true
  | _ => false

def children : Entry → List (String × Entry)
  | folder cs => cs
  | _ => []

def child? (e : Entry) (name : String) : Option Entry := e.children.lookup name

/-- The entry at a location below another one. -/
def at? : Entry → Location → Option Entry
  | e, [] => some e
  | e, name :: names =>
    match e.child? name with
    | some c => c.at? names
    | none => none

/-- Entries with one of them set, which keeps its place or comes last. -/
def setChild (cs : List (String × Entry)) (name : String) (e : Entry) : List (String × Entry) :=
  if cs.any (·.1 = name) then cs.map fun c => if c.1 = name then (name, e) else c
  else cs ++ [(name, e)]

/-- Puts an entry at a location. Folders on the way are made where there are none. -/
def put (e : Entry) : Location → Entry → Entry
  | [], new => new
  | name :: names, new =>
    folder (setChild e.children name (((e.child? name).getD empty).put names new))

def remove (e : Entry) : Location → Entry
  | [] => empty
  | [name] => folder (e.children.filter (·.1 ≠ name))
  | name :: names =>
    match e.child? name with
    | some c => folder (setChild e.children name (c.remove names))
    | none => e

end Tree.Entry

/-- All that there is, and the folder in which a run takes place. -/
structure Tree where
  top : Tree.Entry
  base : Location
  base_isFolder : (top.at? base).any Tree.Entry.isFolder = true

namespace Tree

/-- A folder with nothing around it, in which a run takes place. -/
def ofFolder (children : List (String × Entry)) : Tree := ⟨.folder children, [], rfl⟩

def empty : Tree := ofFolder []

def at? (t : Tree) (l : Location) : Option Entry := t.top.at? l

/-- The tree with another top, if the folder of the run is still there. -/
def withTop (t : Tree) (top : Entry) : Tree :=
  if h : (top.at? t.base).any Entry.isFolder = true then ⟨top, t.base, h⟩ else t

def put (t : Tree) (l : Location) (e : Entry) : Tree := t.withTop (t.top.put l e)

def remove (t : Tree) (l : Location) : Tree := t.withTop (t.top.remove l)

end Tree

end Letterhead
