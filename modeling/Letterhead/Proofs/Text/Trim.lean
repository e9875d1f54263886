import Mathlib.Data.List.TakeWhile
import Letterhead.Text.Blank
import Letterhead.Text.Lines

/-!
Trimming: what is blank leaves nothing, and blanks at an end, the carriage return of a line among
them, make no difference.
-/

namespace Letterhead

namespace Text

@[simp] lemma isBlank_nil : isBlank [] = true := rfl

@[simp] lemma isBlank_append (t u : Text) : isBlank (t ++ u) = (isBlank t && isBlank u) := by
  simp [isBlank, List.all_append]

lemma trimLeft_eq_nil {t : Text} : t.trimLeft = [] ↔ t.isBlank = true := by
  simp [trimLeft, isBlank, List.dropWhile_eq_nil_iff]

lemma trimRight_eq_nil {t : Text} : t.trimRight = [] ↔ t.isBlank = true := by
  simp [trimRight, isBlank, List.dropWhile_eq_nil_iff]

lemma trimLeft_append {t u : Text} (h : t.isBlank = false) :
    (t ++ u).trimLeft = t.trimLeft ++ u := by
  have hne : t.trimLeft ≠ [] := by rw [ne_eq, trimLeft_eq_nil, h]; simp
  unfold trimLeft at hne ⊢
  rw [List.dropWhile_append, if_neg (by simpa using hne)]

lemma trimRight_append_blank (t : Text) {u : Text} (h : u.isBlank = true) :
    (t ++ u).trimRight = t.trimRight := by
  have hu : u.reverse.dropWhile CodePoint.isBlank = [] := by
    simpa [isBlank, List.dropWhile_eq_nil_iff] using h
  rw [trimRight, List.reverse_append, List.dropWhile_append, hu]
  rfl

lemma isBlank_trimLeft {t : Text} : t.trimLeft.isBlank = t.isBlank := by
  induction t with
  | nil => rfl
  | cons c t ih =>
    by_cases hc : c.isBlank = true
    · have e : trimLeft (c :: t) = trimLeft t := by simp [trimLeft, hc]
      rw [e, ih]
      simp [isBlank, hc]
    · have e : trimLeft (c :: t) = c :: t := by simp [trimLeft, hc]
      rw [e]

lemma trim_eq_nil {t : Text} : t.trim = [] ↔ t.isBlank = true := by
  rw [trim, trimRight_eq_nil, isBlank_trimLeft]

@[simp] lemma isEmpty_trim (t : Text) : t.trim.isEmpty = t.isBlank := by
  rw [Bool.eq_iff_iff, List.isEmpty_iff, trim_eq_nil]

lemma trimRight_prefix_self (t : Text) : t.trimRight <+: t := by
  rw [trimRight, ← List.reverse_suffix, List.reverse_reverse]
  exact List.dropWhile_suffix _

lemma trim_prefix_trimLeft (t : Text) : t.trim <+: t.trimLeft := trimRight_prefix_self _

lemma trim_append_blank (t : Text) {u : Text} (h : u.isBlank = true) :
    (t ++ u).trim = t.trim := by
  cases ht : t.isBlank with
  | true =>
    rw [trim_eq_nil.mpr ht, trim_eq_nil, isBlank_append, ht, h]
    rfl
  | false => rw [trim, trimLeft_append ht, trimRight_append_blank _ h, trim]

lemma trim_blank_append {u : Text} (h : u.isBlank = true) (t : Text) :
    (u ++ t).trim = t.trim := by
  have hu : u.dropWhile CodePoint.isBlank = [] := by
    simpa [isBlank, List.dropWhile_eq_nil_iff] using h
  rw [trim, trimLeft, List.dropWhile_append, hu]
  rfl

/-- No blank stands at an end of the text. -/
structure IsTrimmed (t : Text) : Prop where
  head : ∀ c ∈ t.head?, c.isBlank = false
  last : ∀ c ∈ t.getLast?, c.isBlank = false

lemma IsTrimmed.trimLeft_eq {t : Text} (h : t.IsTrimmed) : t.trimLeft = t := by
  rcases t with _ | ⟨c, t⟩
  · rfl
  · simp [trimLeft, h.head c rfl]

lemma trimRight_concat (t : Text) {c : CodePoint} (hc : c.isBlank = false) :
    trimRight (t ++ [c]) = t ++ [c] := by
  simp [trimRight, hc]

lemma IsTrimmed.trim_eq {t : Text} (h : t.IsTrimmed) : t.trim = t := by
  rw [trim, h.trimLeft_eq]
  cases hl : t.getLast? with
  | none => rw [List.getLast?_eq_none_iff.mp hl]; rfl
  | some c =>
    obtain ⟨u, rfl⟩ := List.getLast?_eq_some_iff.mp hl
    exact trimRight_concat u (h.last c hl)

lemma IsTrimmed.append {t u : Text} (ht : t.IsTrimmed) (hu : u.IsTrimmed) (hne : t ≠ [])
    (hne' : u ≠ []) (v : Text) : IsTrimmed (t ++ (v ++ u)) := by
  refine ⟨fun c hc => ht.head c ?_, fun c hc => hu.last c ?_⟩
  · rw [List.head?_append, List.head?_eq_some_head hne] at hc
    rwa [List.head?_eq_some_head hne]
  · rw [← List.append_assoc, List.getLast?_append, List.getLast?_eq_some_getLast hne'] at hc
    rwa [List.getLast?_eq_some_getLast hne']

end Text

namespace LineEnd

@[simp] lemma isBlank_tail (e : LineEnd) : Text.isBlank e.tail = true := by
  cases e <;> decide

@[simp] lemma trim_append_tail (t : Text) (e : LineEnd) : Text.trim (t ++ e.tail) = t.trim :=
  Text.trim_append_blank t e.isBlank_tail

end LineEnd

end Letterhead
