import Letterhead.Pattern.Regex.Search

/-!
The tags of values, and the tag of a plain scalar by its form.
-/

namespace Letterhead.Yaml

inductive Tag where
  | null
  | bool
  | int
  | float
  | timestamp
  | binary
  | text
  | sequence
  | mapping
  | set
  | pairs
  /-- The key of entries that are taken from other mappings. -/
  | merge
  /-- The key of the entry that stands for its whole mapping. -/
  | default
  /-- A tag that no value has. -/
  | unknown
deriving DecidableEq

namespace Tag

/-- The start of the tags that everyone knows. -/
def common : Text := Text.ofString "tag:yaml.org,2002:"

def byName : List (String × Tag) := [
  ("null", null), ("bool", bool), ("int", int), ("float", float), ("timestamp", timestamp),
  ("binary", binary), ("str", text), ("seq", sequence), ("map", mapping), ("set", set),
  ("omap", pairs), ("pairs", pairs), ("merge", merge), ("value", default)]

/-- The tag that is written so in full. -/
def ofText (t : Text) : Tag :=
  match Text.dropHead? common t with
  | some name =>
    match byName.find? fun (n, _) => Text.ofString n == name with
    | some (_, tag) => tag
    | none => unknown
  | none => unknown

/-- The forms of plain scalars that are no text, with their tags. The first that fits decides. -/
def forms : List (String × Tag) := [
  ("^(?:yes|Yes|YES|no|No|NO|true|True|TRUE|false|False|FALSE|on|On|ON|off|Off|OFF)$", bool),
  ("^[-+]?[0-9][0-9_]*\\.[0-9_]*(?:[eE][-+][0-9]+)?$", float),
  ("^\\.[0-9][0-9_]*(?:[eE][-+][0-9]+)?$", float),
  ("^[-+]?[0-9][0-9_]*(?::[0-5]?[0-9])+\\.[0-9_]*$", float),
  ("^[-+]?\\.(?:inf|Inf|INF)$", float),
  ("^\\.(?:nan|NaN|NAN)$", float),
  ("^[-+]?0b[0-1_]+$", int),
  ("^[-+]?0[0-7_]+$", int),
  ("^[-+]?(?:0|[1-9][0-9_]*)$", int),
  ("^[-+]?0x[0-9a-fA-F_]+$", int),
  ("^[-+]?[1-9][0-9_]*(?::[0-5]?[0-9])+$", int),
  ("^<<$", merge),
  ("^(?:~|null|Null|NULL)$", null),
  ("^[0-9][0-9][0-9][0-9]-[0-9][0-9]-[0-9][0-9]$", timestamp),
  ("^[0-9][0-9][0-9][0-9]-[0-9][0-9]?-[0-9][0-9]?(?:[Tt]|[ \\t]+)[0-9][0-9]?:[0-9][0-9]:[0-9][0-9]"
    ++ "(?:\\.[0-9]*)?(?:[ \\t]*(?:Z|[-+][0-9][0-9]?(?::[0-9][0-9])?))?$", timestamp),
  ("^=$", default),
  ("^[!&*]$", unknown)]

/-- Characters that a plain scalar must begin with to be anything but text. -/
def opens (c : CodePoint) : Bool := "yYnNtTfFoO-+0123456789.<~=!&*".toList.any (c.is ·)

/-- The tag of a plain scalar. -/
def ofPlain (t : Text) : Tag :=
  match t.head? with
  | none => null
  | some c =>
    if opens c then
      match forms.find? fun (form, _) => Pattern.occurs .usual form t with
      | some (_, tag) => tag
      | none => text
    else text

end Tag

end Letterhead.Yaml
