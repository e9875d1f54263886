import Letterhead.Header.Halt
import Letterhead.Proofs.Except

/-!
Runs that no pattern ends.

Whether a pattern can be searched for does not depend on the text. So a pattern that can be, or that
is malformed, ends no run, and where all patterns are like that, what is found out about the lines
of a file is what the lines tell.
-/

namespace Letterhead

namespace Pattern

/-- A search for the pattern ends no run. -/
def IsSafe (host : Host) (pattern : String) : Prop :=
  ∀ t e, search host pattern t = .error e → e = .malformed

lemma halt?_eq_none {host : Host} {patterns : List String}
    (h : ∀ p ∈ patterns, IsSafe host p) (t : Text) : halt? host t patterns = none := by
  induction patterns with
  | nil => rfl
  | cons p rest ih =>
    obtain ⟨hp, hrest⟩ := List.forall_mem_cons.mp h
    rw [halt?]
    split
    · rfl
    · exact ih hrest
    · exact ih hrest
    · next e hne he => exact absurd (hp t e he) hne

end Pattern

namespace Settings

variable {s : Settings} {α : Type} {ls : List Text} {ext filename : String}

/-- The patterns that are searched for in lines. -/
def linePatterns (s : Settings) : List String :=
  s.detection.generatedPatterns ++ s.detection.replacePatterns ++ s.thirdParty.patterns

lemma generatedHalt?_eq_none (h : ∀ p ∈ s.detection.generatedPatterns, Pattern.IsSafe s.host p)
    (ls : List Text) : s.generatedHalt? ls = none := by
  induction ls with
  | nil => rfl
  | cons l ls ih =>
    rw [generatedHalt?, Pattern.halt?_eq_none h, Option.none_or, ih]
    exact ite_self none

lemma halt?_of_inspect_error (h : ∀ p ∈ s.detection.generatedPatterns, Pattern.IsSafe s.host p)
    {e : TemplateError} (hi : s.inspect ls ext filename = .error e) :
    s.halt? ls ext filename = none := by
  unfold halt?
  rw [generatedHalt?_eq_none h, hi]
  simp

section Safe

variable (h : ∀ p ∈ s.linePatterns, Pattern.IsSafe s.host p)

include h

lemma lineHalt?_eq_none (hd : Header) (l : Text) : s.lineHalt? hd l = none := by
  have hreplace : Pattern.halt? s.host l s.detection.replacePatterns = none :=
    Pattern.halt?_eq_none (fun p hp => h p (by simp [linePatterns, hp])) l
  have hothers : Pattern.halt? s.host l s.thirdParty.patterns = none :=
    Pattern.halt?_eq_none (fun p hp => h p (by simp [linePatterns, hp])) l
  unfold lineHalt?
  rw [hreplace, hothers]
  simp

/-- **Where every pattern can be searched for or is malformed, none ends a run.** -/
theorem halt?_eq_none (ls : List Text) (ext filename : String) :
    s.halt? ls ext filename = none := by
  have hgenerated := generatedHalt?_eq_none fun p hp => h p (by simp [linePatterns, hp])
  cases hi : s.inspect ls ext filename with
  | error e => exact halt?_of_inspect_error (fun p hp => h p (by simp [linePatterns, hp])) hi
  | ok sc =>
    have hlines : (sc.window ls).findSome? (s.lineHalt? sc.header) = none :=
      List.findSome?_eq_none_iff.mpr fun l _ => lineHalt?_eq_none h _ l
    unfold halt?
    rw [hgenerated, hi]
    simp [hlines]

end Safe

variable {found : Except TemplateError α} {a : α}

lemma unlessHalted_of_halt? {e : Pattern.Invalid} (h : s.halt? ls ext filename = some e)
    (found : Except TemplateError α) :
    s.unlessHalted ls ext filename found = .error (.pattern e) := by
  rw [unlessHalted, h]

lemma unlessHalted_of_not_halt? (h : s.halt? ls ext filename = none)
    (found : Except TemplateError α) :
    s.unlessHalted ls ext filename found = found.mapError .template := by
  rw [unlessHalted, h]

lemma unlessHalted_eq_ok_iff :
    s.unlessHalted ls ext filename found = .ok a ↔
      s.halt? ls ext filename = none ∧ found = .ok a := by
  cases h : s.halt? ls ext filename with
  | some e => simp [unlessHalted_of_halt? h]
  | none => simp [unlessHalted_of_not_halt? h, mapError_eq_ok_iff]

end Settings

end Letterhead
