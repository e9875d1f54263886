import Mathlib.Data.List.Infix
import Letterhead.Template.Expand

/-!
Templates of literal text and bare fields, which are names and no more: expanding one puts the
plain text of a value in the place of each field.
-/

namespace Letterhead.Template

/-- The field is a name and no more. -/
structure Field.IsBare (f : Field) : Prop where
  conversion : f.conversion = none
  spec : f.spec = []

variable {env : Environment} {depth : Nat} {segs : List Segment} {rest : Text}

lemma expandSegments_nil : expandSegments env depth [] = .ok [] := by
  rw [expandSegments]

lemma expandSegments_literal (t : List Char) (h : expandSegments env depth segs = .ok rest) :
    expandSegments env depth (.literal t :: segs) = .ok (Text.ofChars t ++ rest) := by
  rw [expandSegments, h]
  rfl

lemma expandSegments_bare {f : Field} {v : Value} (hf : f.IsBare)
    (hv : lookUp env f.name = .ok v) (h : expandSegments env (depth + 1) segs = .ok rest) :
    expandSegments env (depth + 1) (.field f :: segs) = .ok (v.plain ++ rest) := by
  rw [expandSegments, hv, h, hf.conversion, hf.spec]
  rfl

end Letterhead.Template
