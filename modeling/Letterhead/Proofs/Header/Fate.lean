import Mathlib.Data.List.TakeWhile
import Letterhead.Header.Normalize
import Letterhead.Proofs.Header.Window

/-!
What becomes of each line of the header window when a file is rebuilt.

A line is kept, or goes for its kind, or goes with a comment that goes as a whole, or is a blank
line that goes with what went before it.
-/

namespace Letterhead

/-- What becomes of a line of the window. -/
inductive Fate where
  | kept
  /-- It goes for its kind. -/
  | line
  /-- It goes with a comment that goes as a whole. -/
  | comment
  /-- It is blank and goes with what went before it. -/
  | blank
deriving DecidableEq

namespace Fate

/-- A blank line goes with what goes here. -/
def takesBlank : Fate → Bool
  | line => true
  | comment => true
  | _ => false

end Fate

/-- The lines that are kept. -/
def keptLines (ls : List Text) (f : List Fate) : List Text :=
  (ls.zip f).filterMap fun x => if x.2 = .kept then some x.1 else none

@[simp] lemma keptLines_nil (f : List Fate) : keptLines [] f = [] := rfl

lemma keptLines_cons (l : Text) (ls : List Text) (g : Fate) (f : List Fate) :
    keptLines (l :: ls) (g :: f) = if g = .kept then l :: keptLines ls f else keptLines ls f := by
  unfold keptLines
  by_cases h : g = .kept <;> simp [h]

lemma keptLines_sublist (ls : List Text) (f : List Fate) : (keptLines ls f).Sublist ls := by
  induction ls generalizing f with
  | nil => exact List.Sublist.slnil
  | cons l ls ih =>
    rcases f with _ | ⟨g, f⟩
    · exact List.nil_sublist _
    · rw [keptLines_cons]
      split
      · exact (ih f).cons_cons l
      · exact (ih f).cons l

namespace Settings

variable (s : Settings)

/-- The fates of the lines of the window. -/
def fates : Phase → List Entry → List Fate
  | _, [] => []
  | .removing (left + 1), _ :: es =>
    .comment :: fates (if left = 0 then .removed else .removing left) es
  | phase, (l, k) :: es =>
    if phase = .removed ∧ l.isBlank then .blank :: fates .copying es
    else
      match s.removedBlock? l es with
      | some left => .comment :: fates (.removing left) es
      | none => if s.removes k then .line :: fates .removed es else .kept :: fates .copying es

@[simp] lemma fates_nil (phase : Phase) : s.fates phase [] = [] := by
  cases phase <;> rfl

lemma fates_removing (left : Nat) (e : Entry) (es : List Entry) :
    s.fates (.removing (left + 1)) (e :: es) =
      .comment :: s.fates (if left = 0 then .removed else .removing left) es :=
  rfl

lemma fates_cons {phase : Phase} (hp : ∀ n, phase ≠ .removing (n + 1)) (l : Text) (k : LineKind)
    (es : List Entry) :
    s.fates phase ((l, k) :: es) =
      if phase = .removed ∧ l.isBlank then .blank :: s.fates .copying es
      else
        match s.removedBlock? l es with
        | some left => .comment :: s.fates (.removing left) es
        | none => if s.removes k then .line :: s.fates .removed es
          else .kept :: s.fates .copying es := by
  rcases phase with _ | (_ | n) | _
  · rfl
  · rfl
  · exact absurd rfl (hp n)
  · rfl

lemma survivors_cons {phase : Phase} (hp : ∀ n, phase ≠ .removing (n + 1)) (l : Text)
    (k : LineKind) (es : List Entry) :
    s.survivors phase ((l, k) :: es) =
      if phase = .removed ∧ l.isBlank then s.survivors .copying es
      else
        match s.removedBlock? l es with
        | some left => s.survivors (.removing left) es
        | none => if s.removes k then s.survivors .removed es
          else l :: s.survivors .copying es := by
  rcases phase with _ | (_ | n) | _
  · rfl
  · rfl
  · exact absurd rfl (hp n)
  · rfl

@[simp] lemma length_fates (phase : Phase) (es : List Entry) :
    (s.fates phase es).length = es.length := by
  induction es generalizing phase with
  | nil => simp
  | cons e es ih =>
    obtain ⟨l, k⟩ := e
    by_cases hp : ∃ n, phase = .removing (n + 1)
    · obtain ⟨n, rfl⟩ := hp
      rw [fates_removing, List.length_cons, ih, List.length_cons]
    · rw [s.fates_cons (by simpa using hp)]
      split
      · simp [ih]
      · split
        · simp [ih]
        · split <;> simp [ih]

lemma survivors_eq_keptLines (phase : Phase) (es : List Entry) :
    s.survivors phase es = keptLines (es.map Prod.fst) (s.fates phase es) := by
  induction es generalizing phase with
  | nil => cases phase <;> rfl
  | cons e es ih =>
    obtain ⟨l, k⟩ := e
    by_cases hp : ∃ n, phase = .removing (n + 1)
    · obtain ⟨n, rfl⟩ := hp
      rw [fates_removing, List.map_cons, keptLines_cons, if_neg (by simp), ← ih]
      rfl
    · have hp' : ∀ n, phase ≠ .removing (n + 1) := by simpa using hp
      rw [s.fates_cons hp', s.survivors_cons hp', List.map_cons]
      split
      · rw [keptLines_cons, if_neg (by simp), ih]
      · split
        · rw [keptLines_cons, if_neg (by simp), ih]
        · split
          · rw [keptLines_cons, if_neg (by simp), ih]
          · rw [keptLines_cons, if_pos rfl, ih]

end Settings

end Letterhead
