import Letterhead.Settings.Basic
import Letterhead.Text.Blank

/-!
Comment styles: how a line of text is written, and read, as a comment.
-/

namespace Letterhead

inductive CommentStyle where
  /-- Every line starts with the marker. -/
  | line (marker : String)
  /-- Every line is a comment of its own between `<!--` and `-->`. -/
  | html
  /-- Lines start with a star, between a line `/**` and a line ` */`. -/
  | block
deriving DecidableEq

namespace CommentStyle

def htmlOpen : String := "<!--"
def htmlClose : String := "-->"
def blockOpen : String := "/**"
def blockLine : String := " * "
def blockClose : String := " */"

def ofMarker (marker : String) : CommentStyle :=
  if marker = htmlOpen then html
  else if marker = blockOpen then block
  else line marker

def marker : CommentStyle → String
  | line m => m
  | html => htmlOpen
  | block => blockOpen

/-- The style of an extension for which nothing is configured. -/
def usual (ext : String) : CommentStyle :=
  if [".sh", ".py", ".hcl", ".tf", ".yml", ".yaml"].contains ext then line "#"
  else if [".md", ".html.markdown"].contains ext then html
  else line "//"

def ofExtension (s : Settings) (ext : String) : CommentStyle :=
  match s.commentMarker? ext with
  | some m => ofMarker m
  | none => usual ext

def isYaml (ext : String) : Bool := ext == ".yml" || ext == ".yaml"

/-- The text as a comment line. In YAML a text with a colon is quoted. -/
def wrap (style : CommentStyle) (ext : String) (t : Text) : Text :=
  match style with
  | html => Text.ofString htmlOpen ++ [CodePoint.ofChar ' '] ++ t ++ [CodePoint.ofChar ' '] ++
      Text.ofString htmlClose
  | block => Text.ofString blockLine ++ t
  | line m =>
    let quoted := if isYaml ext && t.any (·.is ':') then
        CodePoint.ofChar '"' :: t ++ [CodePoint.ofChar '"']
      else t
    Text.ofString m ++ CodePoint.ofChar ' ' :: quoted

/-- The text of a line that is a comment. -/
def textOf? (style : CommentStyle) (l : Text) : Option Text :=
  match style with
  | block => (Text.dropHead? blockLine l).map Text.trim
  | html => (Text.dropHead? htmlOpen l.trim).map fun t => ((Text.dropTail? htmlClose t).getD t).trim
  | line m => (Text.dropHead? m l.trim).map Text.trim

/-- What ends a comment that spans lines, given the line that opens it. -/
def closerOf? (opening : Text) : Option Text :=
  let t := opening.trim
  if t = Text.ofString blockOpen then some "*/"
  else if t = Text.ofString htmlOpen then some htmlClose
  else none

/-- A header of lines, between the marker lines of its style. -/
def enclose (style : CommentStyle) (ls : List Text) : List Text :=
  match style with
  | block => Text.ofString blockOpen :: ls ++ [Text.ofString blockClose]
  | _ => ls

end CommentStyle

end Letterhead
