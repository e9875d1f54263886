import Mathlib.Data.List.Infix
import Letterhead.Selection
import Letterhead.Proofs.Except

/-!
Which paths are meant, told with `./` in front of them and without.

The globs do not see the `./`. A configured suffix sees it only if it reaches over the whole path,
into the slash in front of it.
-/

namespace Letterhead

lemma endsIn_iff {s suffix : String} : endsIn s suffix = true ↔ suffix.toList <:+ s.toList :=
  List.isSuffixOf_iff_suffix

lemma toList_point (path : String) : ("./" ++ path).toList = '.' :: '/' :: path.toList := by
  rw [String.toList_append]
  rfl

lemma endsIn_point_iff {path suffix : String} :
    endsIn ("./" ++ path) suffix = true ↔
      endsIn path suffix = true ∨ suffix = "/" ++ path ∨ suffix = "./" ++ path := by
  have hslash : suffix.toList = '/' :: path.toList ↔ suffix = "/" ++ path := by
    rw [← String.toList_inj, String.toList_append]
    rfl
  have hpoint : suffix.toList = '.' :: '/' :: path.toList ↔ suffix = "./" ++ path := by
    rw [← String.toList_inj, toList_point]
  rw [endsIn_iff, endsIn_iff, toList_point, List.suffix_cons_iff, List.suffix_cons_iff, hslash,
    hpoint]
  tauto

namespace Pattern.Glob

@[simp] lemma normalize_point (path : String) : normalize ("./" ++ path) = normalize path := by
  rw [normalize, toList_point]
  exact normalize.stripDots.eq_1 _

@[simp] lemma matchesPath_point (pattern path : String) :
    matchesPath pattern ("./" ++ path) = matchesPath pattern path := by
  rw [matchesPath, matchesPath, normalize_point]

lemma anyMatchesPath_point (patterns : List String) (path : String) :
    anyMatchesPath patterns ("./" ++ path) = anyMatchesPath patterns path := by
  simp [anyMatchesPath]

end Pattern.Glob

namespace Settings

variable {s : Settings} {path : String}

lemma admitsPath_point (s : Settings) (path : String) :
    s.admitsPath ("./" ++ path) = s.admitsPath path := by
  simp only [admitsPath, Pattern.Glob.anyMatchesPath_point]

lemma isSome_longestSuffix?_iff {suffixes : List String} :
    (longestSuffix? suffixes path).isSome = true ↔
      ∃ x ∈ suffixes, x ≠ "" ∧ endsIn path x = true := by
  suffices h : ∀ best : Option String,
      (suffixes.foldl (fun best s =>
        if s != "" && endsIn path s && best.all (·.length < s.length) then some s else best)
        best).isSome = true ↔ best.isSome = true ∨ ∃ x ∈ suffixes, x ≠ "" ∧ endsIn path x = true by
    simpa [longestSuffix?] using h none
  induction suffixes with
  | nil => simp
  | cons x suffixes ih =>
    intro best
    rw [List.foldl_cons, ih]
    by_cases hx : x ≠ "" ∧ endsIn path x = true
    · refine iff_of_true (.inl ?_) (.inr ⟨x, List.mem_cons_self, hx⟩)
      split
      · rfl
      · next hshort =>
        -- an earlier one is as long
        cases best with
        | none => simp [hx] at hshort
        | some y => rfl
    · have hfalse : (x != "" && endsIn path x) = false := by simpa using hx
      simp [hfalse, hx]

/-- A configured suffix takes in the slash in front of the path. -/
def TakesPoint (s : Settings) (path : String) : Prop :=
  ∃ x ∈ s.files.extensions ++ s.files.smartExtensions, x = "/" ++ path ∨ x = "./" ++ path

instance (s : Settings) (path : String) : Decidable (s.TakesPoint path) :=
  inferInstanceAs (Decidable
    (∃ x ∈ s.files.extensions ++ s.files.smartExtensions, x = "/" ++ path ∨ x = "./" ++ path))

lemma isSome_longestSuffix?_point_iff :
    (longestSuffix? (s.files.extensions ++ s.files.smartExtensions) ("./" ++ path)).isSome = true ↔
      (longestSuffix? (s.files.extensions ++ s.files.smartExtensions) path).isSome = true ∨
        s.TakesPoint path := by
  simp only [isSome_longestSuffix?_iff, endsIn_point_iff, TakesPoint, ← exists_or, ← and_or_left]
  refine exists_congr fun x => and_congr_right fun _ => ?_
  have hne : x = "/" ++ path ∨ x = "./" ++ path → x ≠ "" := by rintro (rfl | rfl) <;> simp
  tauto

lemma selects_point (h : ¬ s.TakesPoint path) : s.selects ("./" ++ path) = s.selects path := by
  unfold selects
  simp only [isSome_longestSuffix?_point_iff, admitsPath_point, h, or_false]

lemma selects_point_of_selects (h : s.selects path = .ok true) :
    s.selects ("./" ++ path) = .ok true := by
  unfold selects at h ⊢
  split at h
  · next hext => rw [if_pos (isSome_longestSuffix?_point_iff.mpr (.inl hext)), admitsPath_point, h]
  · cases h

end Settings

end Letterhead
