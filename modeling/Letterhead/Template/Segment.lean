import Letterhead.Template.Fault

/-!
A template cut into literal text and fields.

A field runs from an opening brace to the closing one: a name, then perhaps `!` and a conversion,
then perhaps `:` and a format, in which braces are balanced. Doubled braces stand for themselves.
The cut goes on to the first place where the template is malformed, since a field before that
place is expanded, and may fail, first.
-/

namespace Letterhead.Template

structure Field where
  name : List Char
  conversion : Option Char
  spec : List Char
deriving DecidableEq

inductive Segment where
  | literal (text : List Char)
  | field (f : Field)
  | broken (m : Malformed)

/-- Where a field's name ends. -/
inductive NameEnd where
  | close
  | bang
  | colon

/-- Reads a name up to the mark that ends it. Nothing ends it within brackets. -/
def readName (inBrackets : Bool) :
    (cs : List Char) →
      Except Malformed (List Char × NameEnd × { r : List Char // r.length < cs.length })
  | [] => .error .unclosedField
  | c :: rest =>
    let more (inBrackets : Bool) := do
      let (name, ends, r) ← readName inBrackets rest
      return (c :: name, ends, ⟨r.1, Nat.lt_succ_of_lt r.2⟩)
    let stop (ends : NameEnd) := .ok ([], ends, ⟨rest, Nat.lt_succ_self _⟩)
    if inBrackets then more (c != ']')
    else
      match c with
      | '\x7b' => .error .braceInName
      | '\x7d' => stop .close
      | '!' => stop .bang
      | ':' => stop .colon
      | _ => more (c == '[')

/-- Reads a format up to the brace that closes the field. -/
def readSpec (depth : Nat) :
    (cs : List Char) → Except Malformed (List Char × { r : List Char // r.length < cs.length })
  | [] => .error .unclosedSpec
  | c :: rest =>
    let more (depth : Nat) := do
      let (spec, r) ← readSpec depth rest
      return (c :: spec, ⟨r.1, Nat.lt_succ_of_lt r.2⟩)
    match c, depth with
    | '\x7d', 0 => .ok ([], ⟨rest, Nat.lt_succ_self _⟩)
    | '\x7d', depth + 1 => more depth
    | '\x7b', depth => more (depth + 1)
    | _, depth => more depth

/-- Reads a field behind its opening brace. -/
def readField (cs : List Char) :
    Except Malformed (Field × { r : List Char // r.length < cs.length }) := do
  let (name, ends, ⟨rest, h⟩) ← readName false cs
  match ends with
  | .close => return (⟨name, none, []⟩, ⟨rest, h⟩)
  | .colon =>
    let (spec, ⟨r, hr⟩) ← readSpec 0 rest
    return (⟨name, none, spec⟩, ⟨r, Nat.lt_trans hr h⟩)
  | .bang =>
    match rest, h with
    | [], _ => throw .noConversion
    | [_], _ => throw .unclosedSpec
    | c :: d :: rest, h =>
      have short : rest.length < cs.length := by simp only [List.length_cons] at h; omega
      if d = '\x7d' then return (⟨name, some c, []⟩, ⟨rest, short⟩)
      else if d = ':' then
        let (spec, ⟨r, hr⟩) ← readSpec 0 rest
        return (⟨name, some c, spec⟩, ⟨r, Nat.lt_trans hr short⟩)
      else throw .noColon

/-- Cuts a template, `lit` being the literal text read so far, last character first. -/
def cut (lit : List Char) (cs : List Char) : List Segment :=
  match cs with
  | [] => if lit.isEmpty then [] else [.literal lit.reverse]
  | [c] =>
    if c = '\x7d' then [.broken .singleClose]
    else if c = '\x7b' then [.broken .singleOpen]
    else [.literal (c :: lit).reverse]
  | c :: d :: rest =>
    if c = '\x7d' ∨ c = '\x7b' then
      if d = c then .literal (c :: lit).reverse :: cut [] rest
      else if c = '\x7d' then [.broken .singleClose]
      else
        match readField (d :: rest) with
        | .error m => [.broken m]
        | .ok (f, ⟨r, _⟩) => .literal lit.reverse :: .field f :: cut [] r
    else cut (c :: lit) (d :: rest)
termination_by cs.length
decreasing_by
  all_goals simp_all only [List.length_cons]
  all_goals omega

def segments (template : List Char) : List Segment := cut [] template

end Letterhead.Template
