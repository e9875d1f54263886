import Letterhead.Header.Halt
import Letterhead.Selection
import Letterhead.Tree.Tracked

/-!
The files of a run: all at a path, and those among them that are meant.
-/

namespace Letterhead

/-- Why a run ends before all files are done. -/
inductive Abort where
  | notListed (message : String)
  | unreachable (e : IoError)
  | tooManyPatterns
  | stopped (e : Stop)
  /-- The new lines of a file have no bytes. -/
  | notEncodable

namespace Project

def notTracked (path : String) : String :=
  "git ls-files failed for " ++ path ++ ": Command '['git', 'ls-files', " ++ Quoted.string path ++
    "]' returned non-zero exit status 128."

/-- All files at a path, in the order in which they are gone through. -/
def files (p : Project) (s : Settings) (path : String) : Except Abort (List String) :=
  if s.files.gitTracked then
    match p.trackedAt? path with
    | some files => .ok files
    | none => .error (.notListed (notTracked path))
  else
    match p.tree.filesAt? path with
    | .ok (some files) => .ok files
    | .ok none => .error (.notListed ("Path not found: " ++ path))
    | .error e => .error (.unreachable e)

/-- The files among some that are meant. -/
def select (s : Settings) : List String → Except Abort (List String)
  | [] => .ok []
  | f :: rest =>
    match s.selects f with
    | .ok chosen => do
      let more ← select s rest
      return if chosen then f :: more else more
    | .error _ => .error .tooManyPatterns

/-- The files at a path that are meant. -/
def candidates (p : Project) (s : Settings) (path : String) : Except Abort (List String) := do
  select s (← p.files s path)

end Project

end Letterhead
