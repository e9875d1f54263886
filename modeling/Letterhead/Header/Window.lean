import Letterhead.Header.LineKind
import Letterhead.Header.Placement

/-!
The header window: the lines from the offset on in which a header is looked for.

Its size is bounded by the settings but never below the height of the header. Where notices of
others go above the header, the window grows by each one that is found in it.
-/

namespace Letterhead

namespace Settings

/-- The size of a window that has to hold so many lines; nothing if the whole file is meant. -/
def windowSize (s : Settings) (height : Nat) : Option Nat :=
  if s.detection.maxScanLines = 0 then none else some (max s.detection.maxScanLines height)

/-- The end of the window. -/
def windowLimit (s : Settings) (length offset height : Nat) : Nat :=
  match s.windowSize height with
  | none => length
  | some size => min (offset + size) length

/-- The kinds of the lines of the window, `seen` of which lie before these lines, with so many
notices that the header has to make room for. -/
def windowKinds (s : Settings) (h : Header) : (seen notices : Nat) → List Text → List LineKind
  | _, _, [] => []
  | seen, notices, l :: ls =>
    if (s.windowSize (h.lines.length + notices)).all (seen < ·) then
      let kind := s.lineKind h l
      let counts := s.thirdParty.action = .below ∧ kind = .thirdParty
      kind :: windowKinds s h (seen + 1) (if counts then notices + 1 else notices) ls
    else []

end Settings

/-- A file looked at: its header as it should be, where that goes, and what stands there. -/
structure Scan where
  header : Header
  offset : Nat
  kinds : List LineKind
deriving DecidableEq

namespace Scan

/-- The line behind the window. -/
def limit (sc : Scan) : Nat := sc.offset + sc.kinds.length

/-- The first line of a kind. -/
def first? (sc : Scan) (k : LineKind) : Option Nat :=
  (sc.kinds.findIdx? (· = k)).map (sc.offset + ·)

/-- The header stands there: its copyright line and, if there is to be one, its license line. -/
def isCorrect (sc : Scan) : Bool :=
  sc.kinds.contains .copyright && (sc.header.license.isNone || sc.kinds.contains .license)

def hasStale (sc : Scan) : Bool := sc.kinds.any LineKind.isStale

def hasMaterial (sc : Scan) : Bool := sc.kinds.any (· ≠ .content)

/-- The lines of the window. -/
def window (sc : Scan) (ls : List Text) : List Text := (ls.drop sc.offset).take sc.kinds.length

/-- The notices of others in the window. -/
def notices (sc : Scan) (ls : List Text) : List Text :=
  ((ls.drop sc.offset).zip sc.kinds).filterMap fun (l, k) =>
    if k = .thirdParty then some l else none

end Scan

/-- The name that stands for a file without one. -/
def nameOr (ext : String) : Option String → String
  | none => "dummy" ++ ext
  | some name => if name = "" then "dummy" ++ ext else name

namespace Settings

/-- Looks at the lines of a file with an extension and a name. -/
def inspect (s : Settings) (ls : List Text) (ext filename : String) :
    Except TemplateError Scan := do
  let h ← Header.render s ext
  let o := Placement.offset s ls filename
  return { header := h, offset := o, kinds := s.windowKinds h 0 0 (ls.drop o) }

end Settings

end Letterhead
