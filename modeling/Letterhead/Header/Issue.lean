import Letterhead.Header.Window

/-!
What is wrong with a file.
-/

namespace Letterhead

inductive IssueKind where
  | missing
  | incorrect
  | missingLicense
  | misplaced
  | configError
  | unreadable
  | unwritable
  | empty
deriving DecidableEq

namespace IssueKind

/-- The key of a kind in reports. -/
def key : IssueKind → String
  | missing => "missing"
  | incorrect => "incorrect"
  | missingLicense => "missing_license"
  | misplaced => "misplaced"
  | configError => "config_error"
  | unreadable => "unreadable"
  | unwritable => "unwritable"
  | empty => "empty"

def text : IssueKind → String
  | missing => "missing copyright header"
  | incorrect => "missing or incorrect copyright header"
  | missingLicense => "missing license header"
  | misplaced => "copyright not at top of file"
  | configError => "config error"
  | unreadable => "could not read file"
  | unwritable => "could not write file"
  | empty => "empty file"

end IssueKind

structure Issue where
  file : String
  kind : IssueKind
  detail : String
deriving DecidableEq

namespace Issue

def problem (i : Issue) : String :=
  if i.detail = "" then i.kind.text else i.kind.text ++ ": " ++ i.detail

def line (i : Issue) : String := i.file ++ ": " ++ i.problem

end Issue

/-- The line on which the copyright is when the header is at the top. -/
def Scan.expectedIndex (sc : Scan) (action : ThirdPartyAction) : Nat :=
  sc.offset + sc.header.copyrightAt +
    if action = .below then sc.kinds.count .thirdParty else 0

namespace Settings

/-- What is wrong with a file that was looked at, so many lines long. -/
def verdict (s : Settings) (sc : Scan) (length : Nat) : Option IssueKind :=
  if length ≤ sc.offset then some .missing
  else
    match sc.first? .copyright with
    | none => some (if sc.hasStale then .incorrect else .missing)
    | some i =>
      if s.detection.requireAtTop ∧ i ≠ sc.expectedIndex s.thirdParty.action then some .misplaced
      else if sc.header.license.isSome ∧ sc.first? .license = none then some .missingLicense
      else none

/-- What is wrong with the lines of a file. A header that cannot be rendered is the file's issue
if it can be reported. -/
def checkLines (s : Settings) (file : String) (ls : List Text) (ext filename : String) :
    Except TemplateError (Option Issue) :=
  if s.isGenerated ls then .ok none
  else
    match s.inspect ls ext filename with
    | .ok sc => .ok ((s.verdict sc ls.length).map (⟨file, ·, ""⟩))
    | .error e =>
      match e.message? with
      | some m => .ok (some ⟨file, .configError, m⟩)
      | none => .error e

end Settings

end Letterhead
