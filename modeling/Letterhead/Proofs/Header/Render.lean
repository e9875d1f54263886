import Letterhead.Proofs.Header.Window

/-!
What a rendered header is made of: its two lines as comments, and in block style a marker line
above and below them that is neither of the two.
-/

namespace Letterhead

namespace Header

variable {s : Settings} {ext : String} {h : Header}

/-- The marker line above the text of a header, if its style has one. -/
def opening (h : Header) : List Text :=
  if h.style = .block then [Text.ofString CommentStyle.blockOpen] else []

/-- The marker line below the text of a header, if its style has one. -/
def closing (h : Header) : List Text :=
  if h.style = .block then [Text.ofString CommentStyle.blockClose] else []

lemma lines_eq (h : Header) :
    h.lines = h.opening ++ (h.copyright :: h.license.toList ++ h.closing) := by
  unfold lines CommentStyle.enclose opening closing
  cases h.style <;> simp

lemma render_eq_ok_iff :
    render s ext = .ok h ↔ h.style = .ofExtension s ext ∧ s.copyrightLine ext = .ok h.copyright ∧
      s.licenseLine ext = .ok h.license := by
  unfold render
  cases hc : s.copyrightLine ext with
  | error err => simp [bind, Except.bind]
  | ok c =>
    cases hl : s.licenseLine ext with
    | error err => simp [bind, Except.bind]
    | ok l =>
      obtain ⟨style, c', l'⟩ := h
      simp [bind, Except.bind, pure, Except.pure, eq_comm]

end Header

namespace Settings

variable (s : Settings) {ext : String} {h : Header}

lemma copyrightLine_eq_ok_iff {c : Text} :
    s.copyrightLine ext = .ok c ↔ ∃ t, s.copyrightText = .ok t ∧ c = s.wrap ext t := by
  unfold copyrightLine
  cases s.copyrightText with
  | error err => simp [bind, Except.bind]
  | ok t => simp [bind, Except.bind, pure, Except.pure, eq_comm]

lemma lineKind_eq_copyright_iff {l : Text} :
    s.lineKind h l = .copyright ↔ l.isBlank = false ∧ l.trim = h.copyright.trim := by
  constructor
  · intro hk
    by_contra hne
    rw [lineKind, if_neg (by simpa using hne)] at hk
    repeat' split at hk
    all_goals exact absurd hk (by decide)
  · rintro ⟨hb, ht⟩
    exact s.lineKind_of_trim_eq (by rwa [← Text.isEmpty_trim, ← ht, Text.isEmpty_trim]) ht

/-- In block style the text of the copyright line stands behind a star and a blank, so the line
is no marker line. -/
lemma trim_copyright_prefix_star (hr : Header.render s ext = .ok h) (hb : h.style = .block) :
    ∃ t, h.copyright.trim <+: CodePoint.ofChar '*' :: CodePoint.ofChar ' ' :: t := by
  obtain ⟨hs, hc, -⟩ := Header.render_eq_ok_iff.mp hr
  obtain ⟨t, -, hc⟩ := s.copyrightLine_eq_ok_iff.mp hc
  have hw : h.copyright = Text.ofString CommentStyle.blockLine ++ t := by
    rw [hc, wrap, ← hs, hb]
    rfl
  have hp := h.copyright.trim_prefix_trimLeft
  rw [hw] at hp ⊢
  exact ⟨t, hp⟩

lemma trim_marker_ne (hr : Header.render s ext = .ok h) {l : Text}
    (hl : l ∈ h.opening ++ h.closing) : l.trim ≠ h.copyright.trim := by
  intro ht
  by_cases hb : h.style = .block
  · obtain ⟨t, hp⟩ := s.trim_copyright_prefix_star hr hb
    rw [← ht] at hp
    simp only [Header.opening, Header.closing, if_pos hb, List.mem_append,
      List.mem_singleton] at hl
    rcases hl with rfl | rfl
    · have e : Text.trim CommentStyle.blockOpen = CommentStyle.blockOpen := by decide
      rw [e] at hp
      exact absurd hp
        (by simp [Text.ofString, Text.ofChars, CommentStyle.blockOpen, CodePoint.ofChar])
    · have e : Text.trim CommentStyle.blockClose = Text.ofChars ['*', '/'] := by decide
      rw [e] at hp
      exact absurd hp (by simp [Text.ofChars, CodePoint.ofChar])
  · simp [Header.opening, Header.closing, hb] at hl

lemma lineKind_marker_ne (hr : Header.render s ext = .ok h) (e : LineEnd) {l : Text}
    (hl : l ∈ h.opening ++ h.closing) : s.lineKind h (l ++ e.tail) ≠ .copyright := by
  rw [ne_eq, lineKind_eq_copyright_iff, LineEnd.trim_append_tail, not_and]
  exact fun _ => s.trim_marker_ne hr hl

lemma copyrightAt_eq (hr : Header.render s ext = .ok h) :
    h.copyrightAt = h.opening.length := by
  have hnot : h.copyright ∉ h.opening := fun hm =>
    s.trim_marker_ne hr (List.mem_append_left _ hm) rfl
  rw [Header.copyrightAt, Header.lines_eq, List.idxOf_append, if_neg hnot, List.cons_append,
    List.idxOf_cons_self, Nat.zero_add]

end Settings

end Letterhead
