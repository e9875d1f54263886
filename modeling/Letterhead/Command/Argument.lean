import Letterhead.Pattern.Regex.Search

/-!
The arguments of a command line, one by one.

An option can be shortened as long as only one option begins so. A value stands behind an option or
is attached to it, behind an equals sign or, for an option of one letter, directly.
-/

namespace Letterhead.Command

inductive Flag where
  | help
  | config
  | path
  | jobs
  | verbose
  | version
  | format
deriving DecidableEq

namespace Flag

def takesValue : Flag → Bool
  | config => true
  | path => true
  | jobs => true
  | format => true
  | _ => false

end Flag

/-- The options that are known, by their names. -/
abbrev Flags := List (String × Flag)

/-- A text attached to an option, behind an equals sign or not. -/
structure Attached where
  behindEquals : Bool
  text : String
deriving DecidableEq

inductive Argument where
  | plain (text : String)
  /-- Two dashes: all that follows is plain. -/
  | dashes
  /-- An option; `short` tells that it is one letter. -/
  | option (flag : Flag) (short : Bool) (attached : Option Attached)
  | unknown

namespace Argument

def isShort (name : String) : Bool :=
  match name.toList with
  | '-' :: '-' :: _ => false
  | _ => true

/-- The parts around the first equals sign. -/
def cutEquals (s : String) : String × Option Attached :=
  let cs := s.toList
  match cs.dropWhile (· != '=') with
  | [] => (s, none)
  | _ :: text => (String.ofList (cs.takeWhile (· != '=')), some ⟨true, String.ofList text⟩)

/-- The options that a text may be short for, with what is attached to them. -/
def candidates (flags : Flags) (s : String) : List Argument :=
  let startsWith (name head : String) := head.toList.isPrefixOf name.toList
  if isShort s then
    let letter := String.ofList (s.toList.take 2)
    flags.filterMap fun (name, flag) =>
      if name = letter then
        some (option flag true (some ⟨false, String.ofList (s.toList.drop 2)⟩))
      else if startsWith name s then some (option flag (isShort name) none)
      else none
  else
    let (head, attached) := cutEquals s
    flags.filterMap fun (name, flag) =>
      if startsWith name head then some (option flag (isShort name) attached) else none

/-- A number below zero is no option. -/
def isNegativeNumber (s : String) : Bool :=
  Pattern.occurs .usual "^-\\d+$|^-\\d*\\.\\d+$" (Text.ofString s)

/-- Reads an argument that is not two dashes; nothing if it may be short for several options. -/
def ofString? (flags : Flags) (s : String) : Option Argument :=
  let (head, attached) := cutEquals s
  match s.toList with
  | '-' :: _ :: _ =>
    match flags.lookup s, flags.lookup head with
    | some flag, _ => some (option flag (isShort s) none)
    | none, some flag => some (option flag (isShort head) attached)
    | none, none =>
      match candidates flags s with
      | [a] => some a
      | [] => if isNegativeNumber s || s.toList.contains ' ' then some (plain s) else some unknown
      | _ => none
  | _ => some (plain s)

/-- Reads arguments; nothing if one of them may be short for several options. -/
def ofStrings? (flags : Flags) : List String → Option (List Argument)
  | [] => some []
  | s :: rest =>
    if s = "--" then some (dashes :: rest.map plain)
    else do return (← ofString? flags s) :: (← ofStrings? flags rest)

end Argument

end Letterhead.Command
