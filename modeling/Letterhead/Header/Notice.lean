import Letterhead.Header.Render
import Letterhead.Text.Digit

/-!
Recognizing a notice of our own, whatever its years.

The copyright template gives the shape of a notice: its literal text and the holder as they are,
and four digits wherever it has a year. Besides, any text that starts with `Copyright`, names the
holder and has four digits in a row is taken for ours.
-/

namespace Letterhead

/-- A part of the shape of a notice. -/
inductive NoticePart where
  | exactly (t : Text)
  | year
  /-- One year, or two with a comma between them. -/
  | years
deriving DecidableEq

namespace NoticePart

/-- The part that a field of the copyright template stands for. -/
def ofField? (holder : String) (f : Template.Field) : Option NoticePart :=
  let name := String.ofList f.name
  if name = "start_year" ∨ name = "current_year" then some .year
  else if name = "years" then some .years
  else if name = "holder" then some (.exactly holder)
  else none

/-- The part that a segment stands for. -/
def ofSegment? (holder : String) : Template.Segment → Option NoticePart
  | .literal t => some (.exactly (Text.ofChars t))
  | .field f => ofField? holder f
  | .broken _ => none

/-- The rest of a text behind four digits. -/
def afterYear? : Text → Option Text
  | a :: b :: c :: d :: rest =>
    if a.isDigit && b.isDigit && c.isDigit && d.isDigit then some rest else none
  | _ => none

/-- The rest of a text behind a comma, blanks and four digits. -/
def afterSecondYear? : Text → Option Text
  | c :: rest => if c.is ',' then afterYear? (Text.trimLeft rest) else none
  | [] => none

/-- The text starts with the parts in order. -/
def open? : List NoticePart → Text → Bool
  | [], _ => true
  | .exactly s :: ps, t =>
    match Text.dropHead? s t with
    | some rest => open? ps rest
    | none => false
  | .year :: ps, t =>
    match afterYear? t with
    | some rest => open? ps rest
    | none => false
  | .years :: ps, t =>
    match afterYear? t with
    | some rest =>
      open? ps rest ||
        match afterSecondYear? rest with
        | some rest => open? ps rest
        | none => false
    | none => false

end NoticePart

namespace Settings

/-- The shape of our notice, if the template has one with a year in it. -/
def noticeShape? (c : Copyright) : Option (List NoticePart) := do
  let parts ← (Template.segments c.format.toList).mapM (NoticePart.ofSegment? c.holder)
  if parts.any (fun p => p = .year ∨ p = .years) then some parts else none

def hasYear : Text → Bool
  | [] => false
  | c :: t => (NoticePart.afterYear? (c :: t)).isSome || hasYear t

/-- The text names the holder as a copyright notice does. -/
def namesHolder (c : Copyright) (t : Text) : Bool :=
  let holder := Text.trim c.holder
  !holder.isEmpty && t.startsWith "Copyright" && Text.hasPart holder t && hasYear t

/-- The text of a comment begins like our notice. -/
def isOwnText (s : Settings) (t : Text) : Bool :=
  (noticeShape? s.copyright).any (NoticePart.open? · t) || namesHolder s.copyright t

def isOwnLine (s : Settings) (style : CommentStyle) (l : Text) : Bool :=
  (style.textOf? l).any s.isOwnText

/-- What a license identifier is written behind. -/
def spdxTag : String := "SPDX-License-Identifier:"

def isSpdxText (t : Text) : Bool := Text.hasPart spdxTag t

def isSpdxLine (style : CommentStyle) (l : Text) : Bool := (style.textOf? l).any isSpdxText

end Settings

end Letterhead
