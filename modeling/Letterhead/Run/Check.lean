import Letterhead.Run.Listing
import Letterhead.Source

/-!
Checking files, which changes none.
-/

namespace Letterhead

namespace Settings

/-- What is wrong with a file that was read. -/
def checkSource (s : Settings) (src : Source) : Except Stop (Option Issue) :=
  if src.bytes.isEmpty then .ok (some ⟨src.path, .empty, ""⟩)
  else
    s.unlessHalted src.lines.all src.extension src.name
      (s.checkLines src.path src.lines.all src.extension src.name)

/-- What is wrong with the file at a path. -/
def checkFile (s : Settings) (t : Tree) (path : String) : Except Stop (Option Issue) :=
  match t.read path with
  | .error _ => .ok (some ⟨path, .unreadable, ""⟩)
  | .ok bs =>
    match s.source? path bs with
    | none => .ok none
    | some src => s.checkSource src

/-- The issues of files, in the order of the files. -/
def issuesOf (s : Settings) (t : Tree) : List String → Except Stop (List Issue)
  | [] => .ok []
  | f :: rest => do
    let issue ← s.checkFile t f
    return issue.toList ++ (← issuesOf s t rest)

end Settings

namespace Project

/-- The issues of all files at a path that are meant, in the order of their paths. -/
def check (p : Project) (s : Settings) (path : String) : Except Abort (List Issue) := do
  let issues ← (s.issuesOf p.tree (← p.candidates s path)).mapError .stopped
  return issues.mergeSort fun a b => Tree.isBefore a.file b.file

end Project

end Letterhead
