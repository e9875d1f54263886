import Letterhead.Run.Listing
import Letterhead.Source
import Letterhead.Tree.Replace

/-!
Bringing files to their normal form, one after the other.

A file that cannot be read, rendered or written is an issue and stays as it is.
-/

namespace Letterhead

/-- What lies outside the tree when files are replaced. -/
structure Obstacles where
  /-- What keeps a step from happening when the file at a path is replaced. -/
  hinders : String → Tree.ReplaceStep → Option IoError
  /-- What is told of a path whose file was not replaced. It may name the new file, which has any
  name that is not in use. -/
  describe : String → IoError → String

/-- What became of a file. -/
structure FileFix where
  path : String
  outcome : Outcome
  issue : Option Issue

/-- What became of the files of a run. -/
structure FixReport where
  fixed : Nat
  added : Nat
  errors : List Issue

namespace FixReport

def empty : FixReport := ⟨0, 0, []⟩

def changed (r : FixReport) : Nat := r.fixed + r.added

def record (r : FixReport) (f : FileFix) : FixReport :=
  match f.issue, f.outcome with
  | some i, _ => { r with errors := r.errors ++ [i] }
  | none, .fixed => { r with fixed := r.fixed + 1 }
  | none, .added => { r with added := r.added + 1 }
  | none, _ => r

end FixReport

namespace Settings

/-- The normal form of a file that was read, if nothing stops the search for it. -/
def normalizeSource (s : Settings) (src : Source) : Except Stop Normalized :=
  s.unlessHalted src.lines.all src.extension src.name
    (s.normalize src.lines.all src.extension src.name src.lines.lineEnd)

/-- Writes the normal form of a file that was read. -/
def fixSource (s : Settings) (obstacles : Obstacles) (t : Tree) (src : Source) :
    Except Abort FileFix × Tree :=
  let skipped (kind : IssueKind) (detail : String) : Except Abort FileFix :=
    .ok ⟨src.path, .skipped, some ⟨src.path, kind, detail⟩⟩
  match s.normalizeSource src with
  | .error (.pattern e) => (.error (.stopped (.pattern e)), t)
  | .error (.template e) =>
    match e.message? with
    | some m => (skipped .configError m, t)
    | none => (.error (.stopped (.template e)), t)
  | .ok n =>
    if !n.outcome.changes then (.ok ⟨src.path, n.outcome, none⟩, t)
    else
      match src.render n.lines with
      | none => (.error .notEncodable, t)
      | some bs =>
        match t.replaceFile src.path bs (obstacles.hinders src.path) with
        | (.ok (), t) => (.ok ⟨src.path, n.outcome, none⟩, t)
        | (.error e, t) => (skipped .unwritable (obstacles.describe src.path e), t)

/-- Brings the file at a path to its normal form. -/
def fixFile (s : Settings) (obstacles : Obstacles) (t : Tree) (path : String) :
    Except Abort FileFix × Tree :=
  match t.read path with
  | .error e => (.ok ⟨path, .skipped, some ⟨path, .unreadable, e.message path⟩⟩, t)
  | .ok bs =>
    match s.source? path bs with
    | none => (.ok ⟨path, .skipped, none⟩, t)
    | some src => s.fixSource obstacles t src

def fixFiles (s : Settings) (obstacles : Obstacles) (r : FixReport) (t : Tree) :
    List String → Except Abort FixReport × Tree
  | [] => (.ok r, t)
  | f :: rest =>
    match s.fixFile obstacles t f with
    | (.ok fix, t) => fixFiles s obstacles (r.record fix) t rest
    | (.error e, t) => (.error e, t)

end Settings

namespace Project

/-- Brings all files at a path that are meant to their normal form. -/
def fix (p : Project) (s : Settings) (obstacles : Obstacles) (path : String) :
    Except Abort FixReport × Project :=
  match p.candidates s path with
  | .error e => (.error e, p)
  | .ok files =>
    let (r, t) := s.fixFiles obstacles .empty p.tree files
    (r, { p with tree := t })

end Project

end Letterhead
