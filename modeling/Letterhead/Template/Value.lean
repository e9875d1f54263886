import Letterhead.Number.Rounding
import Letterhead.Text.Quoted

/-!
The values that a template's fields stand for, and their plain and quoted texts.
-/

namespace Letterhead.Template

inductive Kind where
  | null
  | bool
  | int
  | text
  | list
  | mapping
  | type
  /-- A kind that no field is given, but its parts may be of. -/
  | other (name : String)
deriving DecidableEq

def Kind.name : Kind → String
  | null => "NoneType"
  | bool => "bool"
  | int => "int"
  | text => "str"
  | list => "list"
  | mapping => "dict"
  | type => "type"
  | other name => name

inductive Value where
  | null
  | bool (b : Bool)
  | int (i : Int)
  | text (t : Text)
  | list (items : List Value)
  | mapping (entries : List (String × Value))
  /-- The kind of another value. -/
  | type (k : Kind)
  | other (kind : String) (text : Text)

namespace Value

def kindOf : Value → Kind
  | null => .null
  | bool _ => .bool
  | int _ => .int
  | text _ => .text
  | list _ => .list
  | mapping _ => .mapping
  | type _ => .type
  | other kind _ => .other kind

/-- How a message names the value. -/
def owner : Value → String
  | type k => "type object '" ++ k.name ++ "'"
  | v => "'" ++ v.kindOf.name ++ "' object"

def commaSeparated (parts : List Text) : Text :=
  (parts.intersperse (Text.ofChars [',', ' '])).flatten

mutual

/-- The text of a value in which texts are quoted by the given rule. -/
def quoted (quote : Text → Text) : Value → Text
  | null => "None"
  | bool b => if b then "True" else "False"
  | int i => Text.ofChars (Number.intText i)
  | text t => quote t
  | list items =>
    CodePoint.ofChar '[' :: commaSeparated (quotedAll quote items) ++ [CodePoint.ofChar ']']
  | mapping entries =>
    CodePoint.ofChar '\x7b' :: commaSeparated (quotedEntries quote entries) ++
      [CodePoint.ofChar '\x7d']
  | type k => Text.ofString ("<class '" ++ k.name ++ "'>")
  | other _ t => t

def quotedAll (quote : Text → Text) : List Value → List Text
  | [] => []
  | v :: vs => quoted quote v :: quotedAll quote vs

def quotedEntries (quote : Text → Text) : List (String × Value) → List Text
  | [] => []
  | (k, v) :: es =>
    (quote (Text.ofString k) ++ Text.ofChars [':', ' '] ++ quoted quote v) ::
      quotedEntries quote es

end

/-- The text of a value: a text is its own, all else is as in quoted text. -/
def plain : Value → Text
  | text t => t
  | v => quoted Quoted.printable v

end Value

end Letterhead.Template
