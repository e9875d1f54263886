import Letterhead.Command.Options
import Letterhead.Command.Report
import Letterhead.Run.Check
import Letterhead.Settings.Load

/-!
Carrying out a command line.

The exit code is 0 when all is well, 1 when files have issues, and 2 when something went wrong.
-/

namespace Letterhead

def version : String := "0.10.0"

def versionTag : String := "v" ++ version

namespace Command

structure Answer where
  exit : Nat
  output : String
deriving DecidableEq

/-- Why there is no answer. -/
inductive Failure where
  | settings (e : LoadError)
  | run (a : Abort)

namespace Failure

/-- The message for a failure that is told to the user. -/
def message? : Failure → Option String
  | settings e => e.message?
  | run (.notListed m) => some m
  | run _ => none

end Failure

def report (format : ReportFormat) (is : List Issue) : Answer :=
  { exit := if is.isEmpty then 0 else 1
    output := lines (match format with
      | .text => issuesText is
      | .json => [issuesJson is]) }

def fixReport (r : FixReport) : Answer :=
  ⟨if r.errors.isEmpty then 0 else 2, lines (fixText r)⟩

def usage : List String := [
  "usage: [--config CONFIG] [-p PATH] [-j JOBS] [-v] [--version] check|fix|version",
  "       check [--format text|json]"]

/-- Where a run takes place. -/
structure Setting where
  thisYear : Int
  /-- The configuration file that the environment names. -/
  configVariable : Option String
  obstacles : Obstacles

/-- Checks or fixes, and gives the files after that. -/
def perform (w : Setting) (action : Action) (o : Options) (p : Project) :
    Except Failure Answer × Project :=
  match action with
  | .version => (.ok ⟨0, lines [versionTag]⟩, p)
  | .check format =>
    let answer := do
      let s ← (loadSettings p).mapError Failure.settings
      let is ← (p.check s o.path).mapError Failure.run
      return report format is
    (answer, p)
  | .fix =>
    match loadSettings p with
    | .error e => (.error (.settings e), p)
    | .ok s =>
      let (r, p) := p.fix s w.obstacles o.path
      ((r.mapError Failure.run).map fixReport, p)
where
  loadSettings (p : Project) : Except LoadError Settings :=
    Settings.load w.thisYear p.tree (Settings.configPath o.config w.configVariable)

/-- Carries out a command line. A failure that is told to the user is an answer too. -/
def execute (w : Setting) (args : List String) (p : Project) : Except Failure Answer × Project :=
  match Request.ofArguments args with
  | .misuse => (.ok ⟨2, ""⟩, p)
  | .showHelp => (.ok ⟨0, lines usage⟩, p)
  | .showVersion => (.ok ⟨0, lines [versionTag]⟩, p)
  | .perform action o =>
    match perform w action o p with
    | (.ok a, p) => (.ok a, p)
    | (.error f, p) =>
      match f.message? with
      | some m => (.ok ⟨2, lines ["Error: " ++ m]⟩, p)
      | none => (.error f, p)

end Command

end Letterhead
