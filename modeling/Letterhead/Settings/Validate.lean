import Letterhead.Settings.Basic
import Letterhead.Settings.Scalar

/-!
Settings from the data of a configuration.

A section or field that is left out has its default, and an unknown one is ignored. All problems
are reported, in the order of the fields. Every settings value can be written as data, which are
read as the same settings.
-/

namespace Letterhead.Settings

open Checked (problem)

abbrev Entries := List (Datum × Datum)

def checkMapping (kind : ProblemKind) : Datum → Checked Entries
  | .mapping entries => .valid entries
  | _ => problem kind

/-- A section, whose fields a function reads. -/
def checkSection {α : Type} (read : Entries → Checked α) (d : Datum) : Checked α :=
  (checkMapping .modelType d).bind read

/-- A field, or its default if it is left out. -/
def field {α : Type} (name : String) (check : Datum → Checked α) (default : α)
    (entries : Entries) : Checked α :=
  match Datum.find? name entries with
  | some d => (check d).behind name
  | none => .valid default

def checkList : Datum → Checked (List String)
  | .list items =>
    .all <| items.zipIdx.map fun (d, i) => (checkText d).behind (String.ofList (Number.digits i))
  | _ => problem .listType

/-- An entry: a problem with its key comes before those of its value. -/
def checkEntry {α : Type} (check : Datum → Checked α) (entry : Datum × Datum) :
    Checked (String × α) :=
  let key := entry.1.keyText
  (((checkText entry.1).behind "[key]").behind key).map Prod.mk |>.app ((check entry.2).behind key)

/-- Entries, where a later one with the same key takes the place of the earlier. -/
def put {α : Type} (entries : List (String × α)) (key : String) (value : α) :
    List (String × α) :=
  if entries.any (·.1 = key) then
    entries.map fun e => if e.1 = key then (key, value) else e
  else entries ++ [(key, value)]

def collect {α : Type} (entries : List (String × α)) : List (String × α) :=
  entries.foldl (fun found e => put found e.1 e.2) []

def checkEntries {α : Type} (check : Datum → Checked α) (d : Datum) :
    Checked (List (String × α)) :=
  (checkMapping .dictType d).bind fun entries =>
    (Checked.all (entries.map (checkEntry check))).map collect

def checkAction (d : Datum) : Checked ThirdPartyAction :=
  match checkText d with
  | .valid s =>
    match ThirdPartyAction.all.find? (·.name = s) with
    | some a => .valid a
    | none => problem .enum
  | .invalid _ => problem .enum

def checkCopyright (thisYear : Int) : Datum → Checked Copyright :=
  checkSection fun es =>
    let base := Copyright.default thisYear
    (field "holder" checkText base.holder es).map Copyright.mk
      |>.app (field "start_year" checkInt base.startYear es)
      |>.app (field "current_year" checkInt base.currentYear es)
      |>.app (field "format" checkText base.format es)

def checkLicense : Datum → Checked License :=
  checkSection fun es =>
    let base := License.default
    (field "enabled" checkBool base.enabled es).map License.mk
      |>.app (field "identifier" checkText base.identifier es)
      |>.app (field "format" checkText base.format es)

def checkExceptions : Datum → Checked Exceptions :=
  checkSection fun es =>
    let base := Exceptions.default
    (field "xml_declaration" checkBool base.xmlDeclaration es).map Exceptions.mk
      |>.app (field "markdown_heading" checkBool base.markdownHeading es)

def checkIndicator : Datum → Checked Indicator :=
  checkSection fun es =>
    let base := Indicator.default
    (field "content" checkList base.content es).map Indicator.mk
      |>.app (field "filename" checkList base.filename es)

/-- Comment markers by normalized extension. -/
def checkStyles (d : Datum) : Checked (List (String × String)) :=
  (checkEntries checkText d).map fun es => collect (es.map fun (k, v) => (extensionKey k, v))

def checkFiles : Datum → Checked Files :=
  checkSection fun es =>
    let base := Files.default
    (field "extensions" checkList base.extensions es).map Files.mk
      |>.app (field "smart_extensions" checkList base.smartExtensions es)
      |>.app (field "smart_indicators" (checkEntries checkIndicator) base.smartIndicators es)
      |>.app (field "smart_default" checkText base.smartDefault es)
      |>.app (field "ignore_patterns" checkList base.ignorePatterns es)
      |>.app (field "include_paths" checkList base.includePaths es)
      |>.app (field "exclude_paths" checkList base.excludePaths es)
      |>.app (field "comment_styles" checkStyles base.commentStyles es)
      |>.app (field "below_frontmatter" checkList base.belowFrontMatter es)
      |>.app (field "placement_exceptions" checkExceptions base.exceptions es)
      |>.app (field "git_tracked" checkBool base.gitTracked es)

def checkDetection : Datum → Checked Detection :=
  checkSection fun es =>
    let base := Detection.default
    (field "skip_generated" checkBool base.skipGenerated es).map Detection.mk
      |>.app (field "generated_patterns" checkList base.generatedPatterns es)
      |>.app (field "replace_patterns" checkList base.replacePatterns es)
      |>.app (field "max_scan_lines" checkNat base.maxScanLines es)
      |>.app (field "require_at_top" checkBool base.requireAtTop es)

def checkThirdParty : Datum → Checked ThirdParty :=
  checkSection fun es =>
    let base := ThirdParty.default
    (field "action" checkAction base.action es).map ThirdParty.mk
      |>.app (field "patterns" checkList base.patterns es)

/-- The sections of settings; what is left is as usual. -/
def ofSections (c : Copyright) (l : License) (f : Files) (d : Detection) (t : ThirdParty) :
    Settings :=
  { copyright := c, license := l, files := f, detection := d, thirdParty := t }

def check (thisYear : Int) : Datum → Checked Settings :=
  checkSection fun es =>
    let base := Settings.default thisYear
    (field "copyright" (checkCopyright thisYear) base.copyright es).map ofSections
      |>.app (field "license" checkLicense base.license es)
      |>.app (field "files" checkFiles base.files es)
      |>.app (field "detection" checkDetection base.detection es)
      |>.app (field "third_party" checkThirdParty base.thirdParty es)

/-- The settings that the data of a configuration give. -/
def ofDatum (thisYear : Int) (d : Datum) : Except (List Problem) Settings :=
  (check thisYear d).toExcept

/-! Settings as data. -/

def fields (es : List (String × Datum)) : Datum :=
  .mapping (es.map fun (k, v) => (.string k, v))

def textList (ss : List String) : Datum := .list (ss.map Datum.string)

def Copyright.toDatum (c : Copyright) : Datum :=
  fields [("holder", .string c.holder), ("start_year", .int c.startYear),
    ("current_year", .int c.currentYear), ("format", .string c.format)]

def License.toDatum (l : License) : Datum :=
  fields [("enabled", .bool l.enabled), ("identifier", .string l.identifier),
    ("format", .string l.format)]

def Exceptions.toDatum (e : Exceptions) : Datum :=
  fields [("xml_declaration", .bool e.xmlDeclaration),
    ("markdown_heading", .bool e.markdownHeading)]

def Indicator.toDatum (i : Indicator) : Datum :=
  fields [("content", textList i.content), ("filename", textList i.filename)]

def Files.toDatum (f : Files) : Datum :=
  fields [
    ("extensions", textList f.extensions),
    ("smart_extensions", textList f.smartExtensions),
    ("smart_indicators", fields (f.smartIndicators.map fun (k, i) => (k, i.toDatum))),
    ("smart_default", .string f.smartDefault),
    ("ignore_patterns", textList f.ignorePatterns),
    ("include_paths", textList f.includePaths),
    ("exclude_paths", textList f.excludePaths),
    ("comment_styles", fields (f.commentStyles.map fun (k, m) => (k, .string m))),
    ("below_frontmatter", textList f.belowFrontMatter),
    ("placement_exceptions", f.exceptions.toDatum),
    ("git_tracked", .bool f.gitTracked)]

def Detection.toDatum (d : Detection) : Datum :=
  fields [
    ("skip_generated", .bool d.skipGenerated),
    ("generated_patterns", textList d.generatedPatterns),
    ("replace_patterns", textList d.replacePatterns),
    ("max_scan_lines", .int d.maxScanLines),
    ("require_at_top", .bool d.requireAtTop)]

def ThirdParty.toDatum (t : ThirdParty) : Datum :=
  fields [("action", .string t.action.name), ("patterns", textList t.patterns)]

def toDatum (s : Settings) : Datum :=
  fields [
    ("copyright", s.copyright.toDatum),
    ("license", s.license.toDatum),
    ("files", s.files.toDatum),
    ("detection", s.detection.toDatum),
    ("third_party", s.thirdParty.toDatum)]

end Letterhead.Settings
