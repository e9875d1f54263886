/-!
What is wrong with the data of a configuration, and where.
-/

namespace Letterhead.Settings

inductive ProblemKind where
  | stringType
  | stringUnicode
  | intType
  | intParsing
  | intParsingSize
  | intFromFloat
  | finiteNumber
  | greaterThanEqual
  | boolType
  | boolParsing
  | listType
  | dictType
  | modelType
  | enum
deriving DecidableEq

def ProblemKind.key : ProblemKind → String
  | stringType => "string_type"
  | stringUnicode => "string_unicode"
  | intType => "int_type"
  | intParsing => "int_parsing"
  | intParsingSize => "int_parsing_size"
  | intFromFloat => "int_from_float"
  | finiteNumber => "finite_number"
  | greaterThanEqual => "greater_than_equal"
  | boolType => "bool_type"
  | boolParsing => "bool_parsing"
  | listType => "list_type"
  | dictType => "dict_type"
  | modelType => "model_type"
  | enum => "enum"

structure Problem where
  /-- The keys and indices that lead to the value. -/
  place : List String
  kind : ProblemKind
deriving DecidableEq

/-- The place as one text. -/
def Problem.placeText (p : Problem) : String := ".".intercalate p.place

/-- A value read from data, or all the problems with them. -/
inductive Checked (α : Type) where
  | valid (value : α)
  | invalid (problems : List Problem)

namespace Checked

variable {α β : Type}

def problem (kind : ProblemKind) : Checked α := invalid [⟨[], kind⟩]

def problems : Checked α → List Problem
  | valid _ => []
  | invalid ps => ps

def map (f : α → β) : Checked α → Checked β
  | valid a => valid (f a)
  | invalid ps => invalid ps

/-- Both values, or the problems of both in order. -/
def app : Checked (α → β) → Checked α → Checked β
  | valid f, valid a => valid (f a)
  | f, a => invalid (f.problems ++ a.problems)

def bind (f : α → Checked β) : Checked α → Checked β
  | valid a => f a
  | invalid ps => invalid ps

/-- The problems lie behind a further key. -/
def behind (key : String) : Checked α → Checked α
  | valid a => valid a
  | invalid ps => invalid (ps.map fun p => { p with place := key :: p.place })

def all : List (Checked α) → Checked (List α)
  | [] => valid []
  | c :: cs => (c.map List.cons).app (all cs)

def toExcept : Checked α → Except (List Problem) α
  | valid a => .ok a
  | invalid ps => .error ps

end Checked

end Letterhead.Settings
