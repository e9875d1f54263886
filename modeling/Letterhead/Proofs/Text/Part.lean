import Mathlib.Data.List.Infix
import Letterhead.Text.Basic

/-!
Heads, tails and parts of a text.
-/

namespace Letterhead.Text

lemma dropHead?_eq_some_iff {p t r : Text} : dropHead? p t = some r ↔ t = p ++ r := by
  induction p generalizing t with
  | nil => simp [dropHead?]
  | cons c p ih =>
    cases t with
    | nil => simp [dropHead?]
    | cons d t =>
      rw [dropHead?]
      split
      · next h => rw [ih, h, List.cons_append, List.cons_inj_right]
      · next h => simpa using fun h' => absurd h'.symm h

@[simp] lemma dropHead?_append (p r : Text) : dropHead? p (p ++ r) = some r :=
  dropHead?_eq_some_iff.mpr rfl

@[simp] lemma dropTail?_append (p r : Text) : dropTail? p (r ++ p) = some r := by
  simp [dropTail?]

/-- A head that comes behind one character more leaves that character in front of the rest: the
head is made of it alone. -/
lemma eq_cons_of_dropHead?_cons {p z r : Text} {c : CodePoint}
    (h : dropHead? p (c :: (p ++ z)) = some r) : r = c :: z := by
  rw [dropHead?_eq_some_iff] at h
  induction p with
  | nil => exact h.symm
  | cons d p ih =>
    obtain ⟨rfl, h⟩ := List.cons.inj h
    exact ih h

lemma hasPart_iff {part t : Text} : hasPart part t = true ↔ part <:+: t := by
  induction t with
  | nil => simp [hasPart]
  | cons c t ih =>
    rw [hasPart, Bool.or_eq_true, ih, List.isPrefixOf_iff_prefix, List.infix_cons_iff]

lemma prefix_of_prefix_append_cons {c : CodePoint} {mark w v : Text} (hc : c ∉ mark)
    (h : mark <+: w ++ c :: v) : mark <+: w := by
  induction w generalizing mark with
  | nil =>
    rcases mark with _ | ⟨d, mark⟩
    · exact List.nil_prefix
    · rw [List.nil_append, List.cons_prefix_cons] at h
      exact absurd (h.1 ▸ List.mem_cons_self) hc
  | cons d w ih =>
    rcases mark with _ | ⟨d', mark⟩
    · exact List.nil_prefix
    · rw [List.cons_append, List.cons_prefix_cons] at h
      simp only [List.mem_cons, not_or] at hc
      exact List.cons_prefix_cons.mpr ⟨h.1, ih hc.2 h.2⟩

/-! ### A part in a text with something around it -/

lemma hasPart_append_left_eq_false {part pre t : Text}
    (hpre : ∀ y ∈ pre.tails, y ≠ [] → ¬ part <+: y ∧ ¬ y <+: part)
    (ht : hasPart part t = false) : hasPart part (pre ++ t) = false := by
  induction pre with
  | nil => exact ht
  | cons c pre ih =>
    rw [List.tails_cons, List.forall_mem_cons] at hpre
    rw [Bool.eq_false_iff, ne_eq, hasPart_iff, List.cons_append, List.infix_cons_iff, not_or,
      ← List.cons_append]
    refine ⟨fun h => ?_, ?_⟩
    · have hne := hpre.1 (by simp)
      exact (List.prefix_or_prefix_of_prefix h (List.prefix_append (c :: pre) t)).elim hne.1 hne.2
    · rw [← hasPart_iff, ih hpre.2]
      exact Bool.false_ne_true

lemma hasPart_append_right_eq_false {part t post : Text}
    (hpost : ∀ y ∈ post.inits, y ≠ [] → ¬ part <:+ y ∧ ¬ y <:+ part)
    (ht : hasPart part t = false) : hasPart part (t ++ post) = false := by
  induction post using List.reverseRecOn with
  | nil => rwa [List.append_nil]
  | append_singleton post c ih =>
    have hinits : ∀ y ∈ post.inits, y ∈ (post ++ [c]).inits := fun y hy =>
      (List.mem_inits _ _).mpr (((List.mem_inits _ _).mp hy).trans (List.prefix_append _ _))
    rw [Bool.eq_false_iff, ne_eq, hasPart_iff, ← List.append_assoc, List.infix_concat_iff, not_or,
      List.append_assoc]
    refine ⟨fun h => ?_, ?_⟩
    · have hne := hpost (post ++ [c]) ((List.mem_inits _ _).mpr (List.prefix_refl _)) (by simp)
      exact (List.suffix_or_suffix_of_suffix h (List.suffix_append t _)).elim hne.1 hne.2
    · rw [← hasPart_iff, ih fun y hy => hpost y (hinits y hy)]
      exact Bool.false_ne_true

/-- Neither end of a part lies in what stands before or behind a text. -/
def IsApart (part pre post : Text) : Prop :=
  (∀ y ∈ pre.tails, y ≠ [] → ¬ part <+: y ∧ ¬ y <+: part) ∧
    ∀ y ∈ post.inits, y ≠ [] → ¬ part <:+ y ∧ ¬ y <:+ part

instance (part pre post : Text) : Decidable (IsApart part pre post) :=
  inferInstanceAs (Decidable (_ ∧ _))

lemma hasPart_eq_false_of_isApart {part pre post t : Text} (h : IsApart part pre post)
    (ht : hasPart part t = false) : hasPart part (pre ++ (t ++ post)) = false :=
  hasPart_append_left_eq_false h.1 (hasPart_append_right_eq_false h.2 ht)

end Letterhead.Text
