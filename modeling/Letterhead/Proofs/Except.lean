import Mathlib.Tactic.Basic

/-!
Runs that may fail, step by step.
-/

namespace Letterhead

lemma bind_eq_ok_iff {ε α β : Type} {x : Except ε α} {f : α → Except ε β} {b : β} :
    x >>= f = .ok b ↔ ∃ a, x = .ok a ∧ f a = .ok b := by
  cases x <;> simp [bind, Except.bind]

lemma toOption_eq_some_iff {ε α : Type} {x : Except ε α} {a : α} :
    x.toOption = some a ↔ x = .ok a := by
  cases x <;> simp [Except.toOption]

section MapError

variable {ε ε' α : Type} {x : Except ε α} {f : ε → ε'}

@[simp] lemma mapError_ok (a : α) (f : ε → ε') : (.ok a : Except ε α).mapError f = .ok a := rfl

@[simp] lemma mapError_error (e : ε) (f : ε → ε') :
    (.error e : Except ε α).mapError f = .error (f e) := rfl

lemma mapError_eq_ok_iff {a : α} : x.mapError f = .ok a ↔ x = .ok a := by
  cases x <;> simp

lemma mapError_eq_error_iff {e : ε'} :
    x.mapError f = .error e ↔ ∃ e', x = .error e' ∧ f e' = e := by
  cases x <;> simp

end MapError

end Letterhead
