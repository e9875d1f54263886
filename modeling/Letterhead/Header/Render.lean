import Letterhead.Header.Style
import Letterhead.Template.Expand

/-!
The header that a file has to carry, rendered from the templates of the settings.
-/

namespace Letterhead

/-- A template that could not be expanded. -/
structure TemplateError where
  template : String
  fault : Template.Fault

namespace TemplateError

/-- What is reported; faults that are not reported end the run. -/
def message? (e : TemplateError) : Option String :=
  e.fault.report?.map fun cause =>
    "Cannot expand template " ++ Quoted.string e.template ++ ": " ++ cause.toStringLossy

end TemplateError

def expandTemplate (env : Template.Environment) (template : String) :
    Except TemplateError Text :=
  (Template.expand env template).mapError (⟨template, ·⟩)

namespace Settings

def copyrightValues (c : Copyright) (years : String) : List (String × Template.Value) :=
  [("holder", .text c.holder), ("start_year", .int c.startYear),
    ("current_year", .int c.currentYear), ("years", .text years)]

/-- The copyright text. The years are written before the template is looked at. -/
def copyrightText (s : Settings) : Except TemplateError Text :=
  match s.copyright.years? with
  | some years =>
    expandTemplate ⟨s.host, copyrightValues s.copyright years⟩ s.copyright.format
  | none => .error ⟨s.copyright.format, .longYear⟩

def licenseText (s : Settings) : Except TemplateError Text :=
  expandTemplate ⟨s.host, [("identifier", .text s.license.identifier)]⟩ s.license.format

/-- The text as a comment line of a file with the extension. -/
def wrap (s : Settings) (ext : String) (t : Text) : Text :=
  (CommentStyle.ofExtension s ext).wrap ext t

def copyrightLine (s : Settings) (ext : String) : Except TemplateError Text :=
  return s.wrap ext (← s.copyrightText)

/-- The license line, if there is to be one. -/
def licenseLine (s : Settings) (ext : String) : Except TemplateError (Option Text) :=
  if s.license.enabled then return some (s.wrap ext (← s.licenseText))
  else return none

end Settings

/-- The two lines of a header, in the style of a file. -/
structure Header where
  style : CommentStyle
  copyright : Text
  license : Option Text
deriving DecidableEq

namespace Header

/-- The header of files with an extension. -/
def render (s : Settings) (ext : String) : Except TemplateError Header :=
  return {
    style := .ofExtension s ext
    copyright := ← s.copyrightLine ext
    license := ← s.licenseLine ext }

/-- The lines of the header, with marker lines if the style has them. -/
def lines (h : Header) : List Text :=
  h.style.enclose (h.copyright :: h.license.toList)

/-- The line of the header that holds the copyright. -/
def copyrightAt (h : Header) : Nat := h.lines.idxOf h.copyright

end Header

end Letterhead
