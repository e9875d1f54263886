import Letterhead.Header.Issue
import Letterhead.Header.Normalize

/-!
Patterns that end the run.

A malformed pattern is taken not to occur, but other things that can be wrong with one end the run
as soon as it is searched for. So it matters which patterns are searched for, and when: those of
generated files in the first two lines, then, if the header can be rendered, those for lines to
replace and those of other holders in the lines of the window.
-/

namespace Letterhead

/-- Why nothing is found out about the lines of a file. -/
inductive Stop where
  | pattern (e : Pattern.Invalid)
  | template (e : TemplateError)

namespace Settings

/-- What ends the run when the first lines are searched for a pattern of generated files. -/
def generatedHalt? (s : Settings) : List Text → Option Pattern.Invalid
  | [] => none
  | l :: ls =>
    (Pattern.halt? s.host l s.detection.generatedPatterns).or <|
      if Pattern.anyOccurs s.host s.detection.generatedPatterns l then none
      else generatedHalt? s ls

/-- What ends the run when the kind of a line is asked for. -/
def lineHalt? (s : Settings) (h : Header) (l : Text) : Option Pattern.Invalid :=
  let t := l.trim
  if !t.isEmpty && (t == h.copyright.trim || h.license.any fun license => t == Text.trim license)
  then none
  else
    (Pattern.halt? s.host l s.detection.replacePatterns).or <|
      if s.isReplaced l || s.isOwnLine h.style l then none
      else Pattern.halt? s.host l s.thirdParty.patterns

/-- What ends the run when the lines of a file are looked at. -/
def halt? (s : Settings) (ls : List Text) (ext filename : String) : Option Pattern.Invalid :=
  let generated := if s.detection.skipGenerated then s.generatedHalt? (ls.take 2) else none
  generated.or <|
    if s.isGenerated ls then none
    else
      match s.inspect ls ext filename with
      | .error _ => none
      | .ok sc => (sc.window ls).findSome? (s.lineHalt? sc.header)

/-- What is found out about the lines of a file, if no pattern ends the run before. -/
def unlessHalted {α : Type} (s : Settings) (ls : List Text) (ext filename : String)
    (found : Except TemplateError α) : Except Stop α :=
  match s.halt? ls ext filename with
  | some e => .error (.pattern e)
  | none => found.mapError .template

end Settings

end Letterhead
