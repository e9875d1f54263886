import Letterhead.Host
import Letterhead.Number.Integer
import Letterhead.Number.Rounding

/-!
The settings of a run: whose notice a file has to carry, which files are meant, how they are
commented, and how notices that stand there already are told apart.
-/

namespace Letterhead

/-- Where a notice of another holder goes relative to ours. -/
inductive ThirdPartyAction where
  | leave
  | above
  | below
  | replace
deriving DecidableEq

namespace ThirdPartyAction

def all : List ThirdPartyAction := [leave, above, below, replace]

def name : ThirdPartyAction → String
  | leave => "leave"
  | above => "above"
  | below => "below"
  | replace => "replace"

end ThirdPartyAction

namespace Settings

structure Copyright where
  holder : String
  startYear : Int
  currentYear : Int
  /-- The template of the copyright text. -/
  format : String
deriving DecidableEq

structure License where
  enabled : Bool
  identifier : String
  format : String
deriving DecidableEq

/-- Lines that may stand above a header. -/
structure Exceptions where
  xmlDeclaration : Bool
  markdownHeading : Bool
deriving DecidableEq

/-- Parts of a file's content and name that speak for one extension. -/
structure Indicator where
  content : List String
  filename : List String
deriving DecidableEq

structure Files where
  extensions : List String
  /-- Extensions whose files may be of another type, which their content tells. -/
  smartExtensions : List String
  smartIndicators : List (String × Indicator)
  smartDefault : String
  ignorePatterns : List String
  includePaths : List String
  excludePaths : List String
  /-- What a comment starts with, by normalized extension. -/
  commentStyles : List (String × String)
  /-- Extensions of files whose header goes below a front matter. -/
  belowFrontMatter : List String
  exceptions : Exceptions
  gitTracked : Bool
deriving DecidableEq

structure Detection where
  skipGenerated : Bool
  generatedPatterns : List String
  replacePatterns : List String
  /-- The size of the window in which a header is looked for; zero means the whole file. -/
  maxScanLines : Nat
  requireAtTop : Bool
deriving DecidableEq

structure ThirdParty where
  action : ThirdPartyAction
  patterns : List String
deriving DecidableEq

end Settings

structure Settings where
  copyright : Settings.Copyright
  license : Settings.License
  files : Settings.Files
  detection : Settings.Detection
  thirdParty : Settings.ThirdParty
  /-- The machine that the run is on, which is not configured. -/
  host : Host := .usual

namespace Settings

namespace Copyright

def default (thisYear : Int) : Copyright :=
  { holder := ""
    startYear := thisYear
    currentYear := thisYear
    format := "Copyright \x7bholder\x7d \x7byears\x7d" }

/-- A year, unless it has more digits than are written. -/
def yearText? (i : Int) : Option String :=
  if Number.digitLimit < (Number.digits i.natAbs).length then none
  else some (String.ofList (Number.intText i))

/-- The span of years, as one year if it is one. -/
def years? (c : Copyright) : Option String := do
  if c.startYear = c.currentYear then yearText? c.currentYear
  else return (← yearText? c.startYear) ++ ", " ++ (← yearText? c.currentYear)

end Copyright

def License.default : License :=
  { enabled := false
    identifier := ""
    format := "SPDX-License-Identifier: \x7bidentifier\x7d" }

def Exceptions.default : Exceptions := ⟨false, false⟩

def Indicator.default : Indicator := ⟨[], []⟩

def Files.default : Files :=
  { extensions := []
    smartExtensions := []
    smartIndicators := []
    smartDefault := ".go"
    ignorePatterns := []
    includePaths := []
    excludePaths := []
    commentStyles := []
    belowFrontMatter := []
    exceptions := .default
    gitTracked := false }

def Detection.default : Detection := ⟨false, [], [], 0, false⟩

def ThirdParty.default : ThirdParty := ⟨.leave, []⟩

def default (thisYear : Int) : Settings :=
  { copyright := .default thisYear
    license := .default
    files := .default
    detection := .default
    thirdParty := .default }

/-- The key of an extension: `.html.markdown` is looked up as `html_markdown`. -/
def extensionKey (ext : String) : String :=
  String.ofList ((ext.toList.dropWhile (· == '.')).map fun c => if c = '.' then '_' else c)

/-- What a comment starts with in files of an extension, if that is configured. -/
def commentMarker? (s : Settings) (ext : String) : Option String :=
  (s.files.commentStyles.lookup (extensionKey ext)).filter (· != "")

end Settings

end Letterhead
