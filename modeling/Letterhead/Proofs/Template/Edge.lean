import Letterhead.Proofs.Except
import Letterhead.Proofs.Text.Trim
import Letterhead.Template.Segment

/-!
The two ends of a template are the two ends of what is written for its segments, if something is
written for each field. So where the template has no blanks around it, neither has the text made
of it.
-/

namespace Letterhead.Template

/-! ### What is left behind a field -/

lemma readName_suffix {cs : List Char} {inBrackets : Bool} :
    ∀ res, readName inBrackets cs = .ok res → res.2.2.1 <:+ cs := by
  induction cs generalizing inBrackets with
  | nil => simp [readName]
  | cons c rest ih =>
    intro res h
    unfold readName at h
    dsimp only at h
    split at h
    · obtain ⟨a, ha, h⟩ := bind_eq_ok_iff.mp h
      cases h
      exact (ih a ha).trans (List.suffix_cons c rest)
    · split at h
      · cases h
      · cases h
        exact List.suffix_cons _ rest
      · cases h
        exact List.suffix_cons _ rest
      · cases h
        exact List.suffix_cons _ rest
      · obtain ⟨a, ha, h⟩ := bind_eq_ok_iff.mp h
        cases h
        exact (ih a ha).trans (List.suffix_cons c rest)

lemma readSpec_suffix {cs : List Char} {depth : Nat} :
    ∀ res, readSpec depth cs = .ok res → res.2.1 <:+ cs := by
  induction cs generalizing depth with
  | nil => simp [readSpec]
  | cons c rest ih =>
    intro res h
    unfold readSpec at h
    dsimp only at h
    split at h
    · cases h
      exact List.suffix_cons _ rest
    all_goals
      obtain ⟨a, ha, h⟩ := bind_eq_ok_iff.mp h
      cases h
      exact (ih a ha).trans (List.suffix_cons _ rest)

lemma readField_suffix {cs : List Char} :
    ∀ res, readField cs = .ok res → res.2.1 <:+ cs := by
  intro res h
  obtain ⟨⟨name, ends, rest, hrest⟩, hname, h⟩ := bind_eq_ok_iff.mp h
  have hsuffix : rest <:+ cs := readName_suffix _ hname
  dsimp only at h
  split at h
  · cases h
    exact hsuffix
  · obtain ⟨⟨spec, r⟩, hspec, h⟩ := bind_eq_ok_iff.mp h
    cases h
    exact (readSpec_suffix _ hspec).trans hsuffix
  · split at h
    · cases h
    · cases h
    · next c d rest' _ =>
      have hrest' : rest' <:+ cs := (List.suffix_append [c, d] rest').trans hsuffix
      split_ifs at h
      · cases h
        exact hrest'
      · obtain ⟨⟨spec, r⟩, hspec, h⟩ := bind_eq_ok_iff.mp h
        cases h
        exact (readSpec_suffix _ hspec).trans hrest'

/-! ### The ends -/

variable {write : Segment → Text} {lit cs : List Char}

/-- Where a segment is no literal text, something without blanks around it is written for it. -/
def IsFilled (write : Segment → Text) (segs : List Segment) : Prop :=
  ∀ seg ∈ segs, (∃ t, seg = .literal t) ∨ write seg ≠ [] ∧ (write seg).IsTrimmed

lemma IsFilled.isTrimmed_broken {m : Malformed} (h : IsFilled write [.broken m]) :
    Text.IsTrimmed ([Segment.broken m].flatMap write) := by
  simpa using ((h _ (List.mem_singleton_self _)).resolve_left (by simp)).2

lemma last_append {t u : Text} (ht : ∀ c ∈ t.getLast?, c.isBlank = false)
    (hu : ∀ c ∈ u.getLast?, c.isBlank = false) : ∀ c ∈ (t ++ u).getLast?, c.isBlank = false := by
  intro c hc
  rw [List.getLast?_append, Option.mem_def, Option.or_eq_some_iff] at hc
  exact hc.elim (hu c) fun h => ht c h.2

lemma last_of_suffix {cs r : List Char} (hr : r <:+ cs)
    (h : ∀ c ∈ (Text.ofChars cs).getLast?, c.isBlank = false) :
    ∀ c ∈ (Text.ofChars r).getLast?, c.isBlank = false := by
  obtain ⟨p, rfl⟩ := hr
  intro c hc
  refine h c ?_
  rw [Text.ofChars, List.map_append, List.getLast?_append]
  exact Option.or_eq_some_iff.mpr (.inl hc)

lemma head_flatMap_cut (hlit : ∀ t, write (.literal t) = Text.ofChars t)
    (h : IsFilled write (cut lit cs))
    (hcs : ∀ c ∈ (Text.ofChars (lit.reverse ++ cs)).head?, c.isBlank = false) :
    ∀ c ∈ ((cut lit cs).flatMap write).head?, c.isBlank = false := by
  fun_induction cut lit cs with
  | case1 lit => simp
  | case2 lit => simpa [hlit] using hcs
  | case3 lit => exact h.isTrimmed_broken.head
  | case4 lit => exact h.isTrimmed_broken.head
  | case5 lit c => simpa [hlit] using hcs
  | case6 lit d rest _ _ => simpa [hlit, Text.ofChars, List.head?_append, Option.or_assoc] using hcs
  | case7 lit d rest _ _ => exact h.isTrimmed_broken.head
  | case8 lit c d rest _ _ _ m _ => exact h.isTrimmed_broken.head
  | case9 lit c d rest _ _ _ f r hr _ _ =>
    have hf := (h (.field f) (by simp)).resolve_left (by simp)
    rw [List.flatMap_cons, List.flatMap_cons, hlit]
    rcases hrev : lit.reverse with _ | ⟨a, as⟩
    · rw [Text.ofChars, List.map_nil, List.nil_append, List.head?_append,
        List.head?_eq_some_head hf.1]
      simpa [List.head?_eq_some_head hf.1] using hf.2.head
    · simpa [hrev, Text.ofChars] using hcs
  | case10 lit c d rest _ ih => exact ih h (by simpa using hcs)

lemma last_flatMap_cut (hlit : ∀ t, write (.literal t) = Text.ofChars t)
    (h : IsFilled write (cut lit cs))
    (hcs : ∀ c ∈ (Text.ofChars (lit.reverse ++ cs)).getLast?, c.isBlank = false) :
    ∀ c ∈ ((cut lit cs).flatMap write).getLast?, c.isBlank = false := by
  fun_induction cut lit cs with
  | case1 lit => simp
  | case2 lit => simpa [hlit] using hcs
  | case3 lit => exact h.isTrimmed_broken.last
  | case4 lit => exact h.isTrimmed_broken.last
  | case5 lit c => simpa [hlit] using hcs
  | case6 lit d rest hd ih =>
    rw [List.flatMap_cons, hlit]
    refine last_append ?_ (ih (fun seg hs => h seg (List.mem_cons_of_mem _ hs))
      (last_of_suffix ⟨lit.reverse ++ [d, d], by simp⟩ hcs))
    -- a brace that stands for itself is no blank
    rcases hd with rfl | rfl <;> simp [Text.ofChars] <;> decide
  | case7 lit d rest _ _ => exact h.isTrimmed_broken.last
  | case8 lit c d rest _ _ _ m _ => exact h.isTrimmed_broken.last
  | case9 lit c d rest _ _ _ f r hr hread ih =>
    have hf := (h (.field f) (by simp)).resolve_left (by simp)
    have hr : r <:+ d :: rest := readField_suffix _ hread
    rw [List.flatMap_cons, List.flatMap_cons, ← List.append_assoc]
    refine last_append ?_ (ih (fun seg hs => h seg (by simp [hs]))
      (last_of_suffix (hr.trans ⟨lit.reverse ++ [c], by simp⟩) hcs))
    rw [List.getLast?_append, List.getLast?_eq_some_getLast hf.1]
    simpa [List.getLast?_eq_some_getLast hf.1] using hf.2.last
  | case10 lit c d rest _ ih => exact ih h (by simpa using hcs)

/-- **A template without blanks around it makes a text without blanks around it.** -/
lemma isTrimmed_flatMap_segments {template : List Char}
    (hlit : ∀ t, write (.literal t) = Text.ofChars t) (h : IsFilled write (segments template))
    (ht : (Text.ofChars template).IsTrimmed) : Text.IsTrimmed ((segments template).flatMap write) :=
  ⟨head_flatMap_cut hlit h (by simpa using ht.head),
    last_flatMap_cut hlit h (by simpa using ht.last)⟩

end Letterhead.Template
