import Letterhead.ContentType
import Letterhead.Selection
import Letterhead.Text.Lines
import Letterhead.Header.Window

/-!
A file as it was read.

Its bytes are cut into lines even where they are no UTF-8, so that its lines give the bytes back.
-/

namespace Letterhead

structure Source where
  path : String
  bytes : Bytes
  lines : Lines
  /-- The extension that the file counts under. -/
  extension : String
  /-- The name that decides where the header is placed. -/
  name : String
  /-- The content told the extension. -/
  smart : Bool

namespace Source

/-- The bytes of the file with other lines. -/
def render (src : Source) (ls : List Text) : Option Bytes :=
  Utf8.encode (Lines.join ls src.lines.ended)

end Source

/-- The file with these bytes at a path, unless its content should tell its extension and does
not. -/
def Settings.source? (s : Settings) (path : String) (bs : Bytes) : Option Source :=
  let lines := Lines.ofText (Utf8.decode bs)
  let (ext, smart) := s.effectiveExtension path
  if smart then
    match ContentType.classify s.files bs path with
    | some found =>
      if found = "" then none else some ⟨path, bs, lines, found, nameOr found none, true⟩
    | none => none
  else some ⟨path, bs, lines, ext, path, false⟩

end Letterhead
