import Letterhead.Yaml.Cursor

/-!
The tokens of a document.
-/

namespace Letterhead.Yaml

inductive Directive where
  /-- The version of the format; only the first number counts. -/
  | version (major : Nat)
  /-- A short handle for the beginning of tags. -/
  | handle (handle beginning : Text)
  | other

inductive Token where
  | directive (d : Directive)
  | documentStart
  | documentEnd
  | blockSequenceStart
  | blockMappingStart
  | blockEnd
  | flowSequenceStart
  | flowSequenceEnd
  | flowMappingStart
  | flowMappingEnd
  | blockEntry
  | flowEntry
  | key
  | value
  | reference (name : Text)
  | anchor (name : Text)
  /-- A tag, whose handle is missing when the tag is given in full. -/
  | tag (handle : Option Text) (suffix : Text)
  | scalar (plain : Bool) (text : Text)
  | streamEnd

/-- The tokens that could be read, and why there are no more, unless they are complete. -/
structure Tokens where
  all : List Token
  fault : Option Fault

end Letterhead.Yaml
