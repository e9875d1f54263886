import Letterhead.Header.Notice
import Letterhead.Pattern.Regex.Search

/-!
What a line of the header window is.

The first rule that fits decides: the lines of the header itself, then configured patterns for
lines to replace, then notices of our own, of others, and license lines.
-/

namespace Letterhead

inductive LineKind where
  | copyright
  | license
  | replace
  | ownStale
  | thirdParty
  | spdxStale
  | content
deriving DecidableEq

namespace LineKind

/-- The line is left from a header that is out of date. -/
def isStale : LineKind → Bool
  | replace => true
  | ownStale => true
  | spdxStale => true
  | _ => false

end LineKind

namespace Settings

open Pattern (anyOccurs)

def isReplaced (s : Settings) (l : Text) : Bool := anyOccurs s.host s.detection.replacePatterns l

/-- The notice of another holder, unless it is to be replaced. -/
def isThirdParty (s : Settings) (l : Text) : Bool :=
  !s.isReplaced l && anyOccurs s.host s.thirdParty.patterns l

/-- The first two lines tell whether a file is generated. -/
def isGenerated (s : Settings) (ls : List Text) : Bool :=
  s.detection.skipGenerated && (ls.take 2).any (anyOccurs s.host s.detection.generatedPatterns)

def lineKind (s : Settings) (h : Header) (l : Text) : LineKind :=
  let t := l.trim
  if !t.isEmpty && t == h.copyright.trim then .copyright
  else if !t.isEmpty && h.license.any (fun license => t == Text.trim license) then .license
  else if s.isReplaced l then .replace
  else if s.isOwnLine h.style l then .ownStale
  else if s.isThirdParty l then .thirdParty
  else if isSpdxLine h.style l then .spdxStale
  else .content

end Settings

end Letterhead
