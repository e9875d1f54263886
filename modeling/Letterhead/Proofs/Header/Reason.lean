import Letterhead.Proofs.Header.Fate
import Letterhead.Proofs.Header.HeaderComment

/-!
Every line of the header window has a reason for its fate, read off the window, both ways: a line
that goes has one of three reasons to go, and a line that is kept has none of them.
-/

namespace Letterhead.Settings

variable (s : Settings)

/-- Nothing but its kind decides about a line: it opens no comment that goes as a whole, and is no
blank line behind something that went. `prev` is the fate of what stands before the lines. -/
def OnItsOwn (prev : Fate) (es : List Entry) (f : List Fate) (i : Nat) : Prop :=
  (∀ closer b, ¬ s.IsHeaderComment closer es i b) ∧
    ∀ e ∈ es[i]?, e.1.isBlank = true → ∀ g ∈ (prev :: f)[i]?, g.takesBlank = false

/-- The reasons for the fate of a line. -/
structure Reason (prev : Fate) (es : List Entry) (f : List Fate) (i : Nat) : Prop where
  kept : f[i]? = some .kept →
    (∀ e ∈ es[i]?, s.removes e.2 = false) ∧ s.OnItsOwn prev es f i
  line : f[i]? = some .line →
    (∀ e ∈ es[i]?, s.removes e.2 = true) ∧ s.OnItsOwn prev es f i
  comment : f[i]? = some .comment → ∃ closer a b, a ≤ i ∧ i ≤ b ∧
    s.IsHeaderComment closer es a b ∧ ∀ j, a ≤ j → j ≤ b → f[j]? = some .comment
  blank : f[i]? = some .blank →
    (∀ e ∈ es[i]?, e.1.isBlank = true) ∧ ∃ g ∈ (prev :: f)[i]?, g.takesBlank = true

variable {s} in
lemma Reason.append {prev g : Fate} {p es : List Entry} {q f : List Fate}
    (hlen : q.length = p.length) (hlast : (prev :: q)[p.length]? = some g) {i : Nat}
    (h : s.Reason g es f i) : s.Reason prev (p ++ es) (q ++ f) (p.length + i) := by
  have hes : ∀ j, (p ++ es)[p.length + j]? = es[j]? := by
    intro j
    rw [List.getElem?_append_right (by omega)]
    congr 1
    omega
  have hf : ∀ j, (q ++ f)[p.length + j]? = f[j]? := by
    intro j
    rw [List.getElem?_append_right (by omega)]
    congr 1
    omega
  have hprev : (prev :: (q ++ f))[p.length + i]? = (g :: f)[i]? := by
    rcases i with _ | i
    · rw [← List.cons_append, List.getElem?_append_left (by simp [hlen]), Nat.add_zero, hlast]
      rfl
    · rw [← Nat.add_assoc, List.getElem?_cons_succ, hf]
      rfl
  have hown : s.OnItsOwn g es f i → s.OnItsOwn prev (p ++ es) (q ++ f) (p.length + i) := by
    rintro ⟨h1, h2⟩
    refine ⟨fun closer b hb => ?_, by rwa [hes, hprev]⟩
    obtain ⟨c, rfl⟩ : ∃ c, b = p.length + c := ⟨b - p.length, by have := hb.lt; omega⟩
    exact h1 closer c ((s.isHeaderComment_append).mp hb)
  refine ⟨fun hi => ?_, fun hi => ?_, fun hi => ?_, fun hi => ?_⟩ <;> rw [hf] at hi
  · rw [hes]
    exact ⟨(h.kept hi).1, hown (h.kept hi).2⟩
  · rw [hes]
    exact ⟨(h.line hi).1, hown (h.line hi).2⟩
  · obtain ⟨closer, a, b, ha, hb, hc, hall⟩ := h.comment hi
    refine ⟨closer, p.length + a, p.length + b, by omega, by omega,
      (s.isHeaderComment_append).mpr hc, fun j h1 h2 => ?_⟩
    obtain ⟨j, rfl⟩ : ∃ k, j = p.length + k := ⟨j - p.length, by omega⟩
    rw [hf]
    exact hall j (by omega) (by omega)
  · rw [hes, hprev]
    exact h.blank hi

variable {s} in
lemma forall_reason_append {prev g : Fate} {p es : List Entry} {q f : List Fate}
    (hlen : q.length = p.length) (hlast : (prev :: q)[p.length]? = some g)
    (hp : ∀ i < p.length, s.Reason prev (p ++ es) (q ++ f) i)
    (hes : ∀ i < es.length, s.Reason g es f i) :
    ∀ i < (p ++ es).length, s.Reason prev (p ++ es) (q ++ f) i := by
  intro i hi
  rcases Nat.lt_or_ge i p.length with h | h
  · exact hp i h
  · obtain ⟨j, rfl⟩ : ∃ j, i = p.length + j := ⟨i - p.length, by omega⟩
    rw [List.length_append] at hi
    exact (hes j (by omega)).append hlen hlast

variable {s} in
lemma forall_reason_cons {prev g : Fate} {e : Entry} {es : List Entry} {f : List Fate}
    (h : s.Reason prev (e :: es) (g :: f) 0) (hes : ∀ i < es.length, s.Reason g es f i) :
    ∀ i < (e :: es).length, s.Reason prev (e :: es) (g :: f) i := by
  refine forall_reason_append (p := [e]) (q := [g]) rfl rfl ?_ hes
  intro i hi
  obtain rfl : i = 0 := by simpa using hi
  exact h

lemma fates_removing_eq {n : Nat} {es : List Entry} (hn : n + 1 ≤ es.length) :
    s.fates (.removing (n + 1)) es =
      List.replicate (n + 1) .comment ++ s.fates .removed (es.drop (n + 1)) := by
  induction n generalizing es with
  | zero =>
    rcases es with _ | ⟨e, es⟩
    · simp at hn
    · rfl
  | succ n ih =>
    rcases es with _ | ⟨e, es⟩
    · simp at hn
    · rw [List.length_cons] at hn
      rw [fates_removing, if_neg (by omega), ih (by omega)]
      rfl

variable {s} in
lemma onItsOwn_zero {prev : Fate} {l : Text} {k : LineKind} {es : List Entry} {f : List Fate}
    (hnone : s.removedBlock? l es = none) (hb : ¬ (prev.takesBlank = true ∧ l.isBlank = true)) :
    s.OnItsOwn prev ((l, k) :: es) f 0 := by
  refine ⟨(s.removedBlock?_eq_none_iff).mp hnone, ?_⟩
  rintro e he hbl g hg
  obtain rfl : (l, k) = e := by simpa using he
  obtain rfl : prev = g := by simpa using hg
  by_contra hne
  exact hb ⟨by simpa using hne, hbl⟩

variable {s} in
lemma forall_reason_comment {prev : Fate} {e : Entry} {es : List Entry} {n : Nat} {f : List Fate}
    {closer : Text} (hc : s.IsHeaderComment closer (e :: es) 0 (n + 1)) (hle : n + 1 ≤ es.length)
    (hes : ∀ i < (es.drop (n + 1)).length, s.Reason .comment (es.drop (n + 1)) f i) :
    ∀ i < (e :: es).length, s.Reason prev (e :: es) (List.replicate (n + 2) .comment ++ f) i := by
  have hsplit : e :: es = (e :: es.take (n + 1)) ++ es.drop (n + 1) := by simp
  have hlen : (e :: es.take (n + 1)).length = n + 2 := by
    rw [List.length_cons, List.length_take_of_le hle]
  have hcomment : ∀ j ≤ n + 1,
      (List.replicate (n + 2) Fate.comment ++ f)[j]? = some .comment := by
    intro j hj
    rw [List.getElem?_append_left (by rw [List.length_replicate]; omega),
      List.getElem?_replicate, if_pos (by omega)]
  rw [hsplit]
  refine forall_reason_append (g := .comment) (by rw [List.length_replicate, hlen]) ?_ ?_ hes
  · rw [hlen, List.getElem?_cons_succ, List.getElem?_replicate, if_pos (by omega)]
  · intro i hi
    rw [hlen] at hi
    have hi' := hcomment i (by omega)
    rw [← hsplit]
    refine ⟨fun h => ?_, fun h => ?_, fun _ => ?_, fun h => ?_⟩
    · rw [hi'] at h; simp at h
    · rw [hi'] at h; simp at h
    · exact ⟨closer, 0, n + 1, Nat.zero_le _, by omega, hc, fun j _ hj => hcomment j hj⟩
    · rw [hi'] at h; simp at h

/-- **Every fate has its reason.** -/
theorem reason_fates {phase : Phase} {prev : Fate} (es : List Entry)
    (hp : phase = .copying ∧ prev.takesBlank = false ∨
      phase = .removed ∧ prev.takesBlank = true) :
    ∀ i < es.length, s.Reason prev es (s.fates phase es) i := by
  -- a comment takes many lines at once, so the induction is on the number of lines
  induction hn : es.length using Nat.strong_induction_on generalizing es phase prev with
  | _ n ih =>
    subst hn
    rcases es with _ | ⟨⟨l, k⟩, es⟩
    · simp
    have hphase : phase = .removed ↔ prev.takesBlank = true := by
      rcases hp with ⟨rfl, h⟩ | ⟨rfl, h⟩ <;> simp [h]
    have hready : ∀ n, phase ≠ .removing (n + 1) := by
      rcases hp with ⟨rfl, -⟩ | ⟨rfl, -⟩ <;> simp
    have hcons := s.fates_cons hready l k es
    by_cases hb : phase = .removed ∧ l.isBlank = true
    · rw [if_pos hb] at hcons
      rw [hcons]
      refine forall_reason_cons ⟨by simp, by simp, by simp, fun _ => ⟨?_, prev, rfl, ?_⟩⟩
        (ih es.length (by simp) es (Or.inl ⟨rfl, rfl⟩) rfl)
      · simpa using hb.2
      · exact hphase.mp hb.1
    · rw [if_neg hb] at hcons
      cases hblock : s.removedBlock? l es with
      | some left =>
        obtain ⟨closer, hc⟩ := (s.removedBlock?_eq_some_iff (k := k)).mp hblock
        obtain ⟨n, rfl⟩ : ∃ n, left = n + 1 := ⟨left - 1, by have := hc.lt; omega⟩
        have hle : n + 1 ≤ es.length := by
          obtain ⟨e, he, -⟩ := hc.closed
          have := (List.getElem?_eq_some_iff.mp he).1
          simp only [List.length_cons] at this
          omega
        rw [hblock] at hcons
        simp only [s.fates_removing_eq hle] at hcons
        rw [hcons]
        exact forall_reason_comment hc hle
          (ih _ (by rw [List.length_drop, List.length_cons]; omega) _ (Or.inr ⟨rfl, rfl⟩) rfl)
      | none =>
        have hown : ∀ f, s.OnItsOwn prev ((l, k) :: es) f 0 := fun f =>
          onItsOwn_zero hblock (by rwa [← hphase])
        rw [hblock] at hcons
        by_cases hk : s.removes k = true
        · simp only [if_pos hk] at hcons
          rw [hcons]
          exact forall_reason_cons ⟨by simp, fun _ => ⟨by simpa using hk, hown _⟩, by simp, by simp⟩
            (ih es.length (by simp) es (Or.inr ⟨rfl, rfl⟩) rfl)
        · simp only [if_neg hk] at hcons
          rw [hcons]
          exact forall_reason_cons ⟨fun _ => ⟨by simpa using hk, hown _⟩, by simp, by simp, by simp⟩
            (ih es.length (by simp) es (Or.inl ⟨rfl, rfl⟩) rfl)

end Letterhead.Settings
