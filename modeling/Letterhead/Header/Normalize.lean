import Letterhead.Header.Rebuild

/-!
Bringing a file to its normal form: one that carries its header, or is generated, is left alone;
any other is rebuilt.
-/

namespace Letterhead

inductive Outcome where
  | unchanged
  | added
  | fixed
  | skipped
deriving DecidableEq

structure Normalized where
  lines : List Text
  outcome : Outcome
  /-- What was found, unless the file was skipped. -/
  scan : Option Scan

namespace Outcome

def changes : Outcome → Bool
  | added => true
  | fixed => true
  | _ => false

end Outcome

namespace Settings

def normalize (s : Settings) (ls : List Text) (ext filename : String) (e : LineEnd) :
    Except TemplateError Normalized := do
  if s.isGenerated ls then return ⟨ls, .skipped, none⟩
  let sc ← s.inspect ls ext filename
  if sc.isCorrect then return ⟨ls, .unchanged, some sc⟩
  let new := s.rebuild sc ls e
  if new = ls then return ⟨new, .unchanged, some sc⟩
  return ⟨new, if sc.hasMaterial then .fixed else .added, some sc⟩

/-- The normal form of a text. -/
def normalizeText (s : Settings) (t : Text) (ext filename : String) :
    Except TemplateError (Text × Normalized) := do
  let l := Lines.ofText t
  let n ← s.normalize l.all ext filename l.lineEnd
  return (if n.outcome.changes then Lines.join n.lines l.ended else t, n)

end Settings

end Letterhead
