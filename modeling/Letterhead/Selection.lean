import Letterhead.Pattern.Glob
import Letterhead.Settings.Basic
import Letterhead.Text.Basic

/-!
Which files are meant, and which extension a file counts under.

The longest configured suffix of a path decides, so that `.html.markdown` wins over `.markdown`.
-/

namespace Letterhead

namespace Settings

/-- The longest of the suffixes that the path ends with; an empty one is none. -/
def longestSuffix? (suffixes : List String) (path : String) : Option String :=
  suffixes.foldl
    (fun best s =>
      if s != "" && endsIn path s && best.all (·.length < s.length) then some s else best)
    none

/-- The extension of a path, from the last point of its last part on; points in front of that
part do not count. -/
def plainExtension (path : String) : String :=
  let name := (path.toList.reverse.takeWhile (· != '/')).reverse.dropWhile (· == '.')
  if name.contains '.' then
    String.ofList ('.' :: (name.reverse.takeWhile (· != '.')).reverse)
  else ""

/-- The extension that a path counts under, and whether it is one whose content decides. -/
def effectiveExtension (s : Settings) (path : String) : String × Bool :=
  let ext := plainExtension path
  let ext := match longestSuffix? s.files.extensions path with
    | some c => if ext.length < c.length then c else ext
    | none => ext
  match longestSuffix? s.files.smartExtensions path with
  | some c => if ext.length ≤ c.length then (c, true) else (ext, false)
  | none => (ext, false)

open Pattern.Glob (TooMany anyMatchesPath)

/-- The globs let the path through: it is neither ignored nor excluded, and included if there
are paths to include. -/
def admitsPath (s : Settings) (path : String) : Except TooMany Bool := do
  if ← anyMatchesPath s.files.ignorePatterns path then return false
  if ← anyMatchesPath s.files.excludePaths path then return false
  if s.files.includePaths.isEmpty then return true
  anyMatchesPath s.files.includePaths path

/-- The file is meant: its extension is configured, and the globs let it through. -/
def selects (s : Settings) (path : String) : Except TooMany Bool :=
  if (longestSuffix? (s.files.extensions ++ s.files.smartExtensions) path).isSome then
    s.admitsPath path
  else .ok false

end Settings

end Letterhead
