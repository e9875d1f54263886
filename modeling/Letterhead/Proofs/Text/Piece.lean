import Letterhead.Proofs.Text.Part

/-!
A text by its pieces: the lines, each with the line feed that ends it.

A test that tells nothing across line feeds passes on a text if it passes on one of its pieces, in
whatever order these stand. So two texts pass it alike if none of the pieces that only one of them
has passes it.
-/

namespace Letterhead.Text

/-- The lines of a text, each with its line feed; the last one need not have any. -/
def pieces : Text → List Text
  | [] => []
  | c :: t =>
    if c = CodePoint.ofChar '\n' then [c] :: pieces t
    else
      match pieces t with
      | [] => [[c]]
      | p :: ps => (c :: p) :: ps

@[simp] lemma pieces_nil : pieces [] = [] := rfl

lemma pieces_append_newline {l : Text} (h : CodePoint.ofChar '\n' ∉ l) (r : Text) :
    pieces (l ++ CodePoint.ofChar '\n' :: r) = (l ++ [CodePoint.ofChar '\n']) :: pieces r := by
  induction l with
  | nil => simp [pieces]
  | cons c l ih =>
    simp only [List.mem_cons, not_or] at h
    rw [List.cons_append, pieces, if_neg (Ne.symm h.1), ih h.2]
    rfl

lemma pieces_of_not_mem {l : Text} (h : CodePoint.ofChar '\n' ∉ l) (hne : l ≠ []) :
    pieces l = [l] := by
  induction l with
  | nil => exact absurd rfl hne
  | cons c l ih =>
    simp only [List.mem_cons, not_or] at h
    rw [pieces, if_neg (Ne.symm h.1)]
    rcases l with _ | ⟨d, l⟩
    · rfl
    · rw [ih h.2 (by simp)]

/-- A text is nothing, or a last line, or a line and a text behind it. -/
theorem line_induction {motive : Text → Prop} (nil : motive [])
    (last : ∀ l, l ≠ [] → CodePoint.ofChar '\n' ∉ l → motive l)
    (line : ∀ l r, CodePoint.ofChar '\n' ∉ l → motive r →
      motive (l ++ CodePoint.ofChar '\n' :: r)) (t : Text) : motive t := by
  induction hlen : t.length using Nat.strong_induction_on generalizing t with
  | _ len ih =>
    by_cases hmem : CodePoint.ofChar '\n' ∈ t
    · obtain ⟨l, r, rfl, hl⟩ := List.eq_append_cons_of_mem hmem
      exact line l r hl (ih _ (by rw [← hlen, List.length_append, List.length_cons]; omega) r rfl)
    · rcases eq_or_ne t [] with rfl | hne
      · exact nil
      · exact last t hne hmem

/-- The test tells nothing across the end of a line: a text passes that starts with the line if the
line passes or what follows it. -/
def SplitsAt (m : Text → Bool) (l : Text) : Prop :=
  ∀ r, m (l ++ CodePoint.ofChar '\n' :: r) = (m (l ++ [CodePoint.ofChar '\n']) || m r)

lemma SplitsAt.or {m m' : Text → Bool} {l : Text} (h : SplitsAt m l) (h' : SplitsAt m' l) :
    SplitsAt (fun t => m t || m' t) l := by
  intro r
  simp only [h r, h' r, Bool.or_assoc, Bool.or_left_comm]

lemma splitsAt_any {α : Type} {ms : List α} {m : α → Text → Bool} {l : Text}
    (h : ∀ a ∈ ms, SplitsAt (m a) l) : SplitsAt (fun t => ms.any (m · t)) l := by
  induction ms with
  | nil => exact fun r => rfl
  | cons a ms ih =>
    obtain ⟨ha, hms⟩ := List.forall_mem_cons.mp h
    exact ha.or (ih hms)

/-- **A test that tells nothing across line feeds is one on the pieces.** -/
lemma eq_any_pieces {m : Text → Bool} {t : Text} (hnil : m [] = false)
    (h : ∀ l, CodePoint.ofChar '\n' ∉ l → l ++ [CodePoint.ofChar '\n'] ∈ pieces t →
      SplitsAt m l) : m t = (pieces t).any m := by
  induction t using line_induction with
  | nil => simpa using hnil
  | last l hne hl => simp [pieces_of_not_mem hl hne]
  | line l r hl ih =>
    rw [pieces_append_newline hl] at h ⊢
    rw [h l hl List.mem_cons_self r, List.any_cons,
      ih fun l' hl' hm => h l' hl' (List.mem_cons_of_mem _ hm)]

/-! ### Parts within a line -/

/-- No line feed stands in the part but at its end. -/
def IsInLine (part : Text) : Prop := CodePoint.ofChar '\n' ∉ part.dropLast

instance (part : Text) : Decidable (IsInLine part) :=
  inferInstanceAs (Decidable (CodePoint.ofChar '\n' ∉ part.dropLast))

lemma prefix_of_isInLine {part l r : Text} (hp : IsInLine part)
    (h : part <+: l ++ CodePoint.ofChar '\n' :: r) : part <+: l ++ [CodePoint.ofChar '\n'] := by
  rcases List.eq_nil_or_concat part with rfl | ⟨q, c, rfl⟩
  · exact List.nil_prefix
  rw [List.concat_eq_append] at hp h ⊢
  have hq : CodePoint.ofChar '\n' ∉ q := by simpa [IsInLine] using hp
  obtain ⟨x, rfl⟩ := prefix_of_prefix_append_cons hq ((List.prefix_append q [c]).trans h)
  rw [List.append_assoc, List.prefix_append_right_inj] at h ⊢
  rcases x with _ | ⟨d, x⟩
  · simpa using h
  · simpa using h

lemma splitsAt_hasPart {part : Text} (hp : IsInLine part) (l : Text) :
    SplitsAt (hasPart part) l := by
  intro r
  rw [Bool.eq_iff_iff, Bool.or_eq_true, hasPart_iff, hasPart_iff, hasPart_iff]
  constructor
  · induction l with
    | nil =>
      rw [List.nil_append, List.infix_cons_iff]
      rintro (h | h)
      · exact Or.inl (prefix_of_isInLine (l := []) hp h).isInfix
      · exact Or.inr h
    | cons c l ih =>
      rw [List.cons_append, List.cons_append, List.infix_cons_iff]
      rintro (h | h)
      · exact Or.inl (prefix_of_isInLine (l := c :: l) hp h).isInfix
      · exact (ih h).imp_left fun h => h.trans (List.suffix_cons c _).isInfix
  · have hsplit : l ++ CodePoint.ofChar '\n' :: r = l ++ [CodePoint.ofChar '\n'] ++ r := by simp
    rw [hsplit]
    rintro (h | h)
    · exact h.trans (List.prefix_append _ r).isInfix
    · exact h.trans (List.suffix_append _ r).isInfix

/-! ### Two texts -/

/-- The pieces that only one of two texts has. -/
def changedLines (t u : Text) : List Text :=
  (pieces t).filter (· ∉ pieces u) ++ (pieces u).filter (· ∉ pieces t)

/-- **Texts pass a test alike** if it tells nothing across the ends of their lines and no piece that
only one of them has passes it. -/
theorem eq_of_changedLines {m : Text → Bool} {t u : Text} (hnil : m [] = false)
    (hsplit : ∀ l, CodePoint.ofChar '\n' ∉ l →
      l ++ [CodePoint.ofChar '\n'] ∈ pieces t ++ pieces u → SplitsAt m l)
    (h : ∀ p ∈ changedLines t u, m p = false) : m t = m u := by
  have ht : m t = (pieces t).any m :=
    eq_any_pieces hnil fun l hl hm => hsplit l hl (List.mem_append_left _ hm)
  have hu : m u = (pieces u).any m :=
    eq_any_pieces hnil fun l hl hm => hsplit l hl (List.mem_append_right _ hm)
  -- a piece that passes is a piece of both texts
  rw [Bool.eq_iff_iff, ht, hu, List.any_eq_true, List.any_eq_true]
  constructor
  · rintro ⟨p, hp, hm⟩
    by_cases hpu : p ∈ pieces u
    · exact ⟨p, hpu, hm⟩
    · rw [h p (by simp [changedLines, hp, hpu])] at hm
      cases hm
  · rintro ⟨p, hp, hm⟩
    by_cases hpt : p ∈ pieces t
    · exact ⟨p, hpt, hm⟩
    · rw [h p (by simp [changedLines, hp, hpt])] at hm
      cases hm

lemma mem_pieces_or_changed {t u p : Text} (h : p ∈ pieces t ++ pieces u) :
    p ∈ pieces t ∨ p ∈ changedLines t u := by
  by_cases ht : p ∈ pieces t
  · exact Or.inl ht
  · refine Or.inr (List.mem_append_right _ (List.mem_filter.mpr ⟨?_, by simpa using ht⟩))
    exact (List.mem_append.mp h).resolve_left ht

end Letterhead.Text
