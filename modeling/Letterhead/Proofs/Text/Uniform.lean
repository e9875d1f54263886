import Letterhead.Proofs.Text.LineEnd

/-!
Texts that end all their lines in the same way.

In a text with carriage returns before its line feeds and nowhere else, every line that is ended
ends in the one carriage return that it has, and a last line that is not ended has none. So what
most lines end in is what all of them end in.
-/

namespace Letterhead

namespace Lines

open Text

/-- Every line feed follows a carriage return, and every carriage return precedes a line feed. -/
structure IsPaired (t : Text) : Prop where
  lf : ∀ u v, t = u ++ CodePoint.ofChar '\n' :: v → u.getLast? = some (CodePoint.ofChar '\r')
  cr : ∀ u v, t = u ++ CodePoint.ofChar '\r' :: v → v.head? = some (CodePoint.ofChar '\n')

/-- A line with a carriage return at its end and nowhere else. -/
def EndsInReturn (l : Text) : Prop := ∃ u, CodePoint.ofChar '\r' ∉ u ∧ l = u ++ LineEnd.crlf.tail

lemma EndsInReturn.mem {l : Text} (h : EndsInReturn l) : CodePoint.ofChar '\r' ∈ l := by
  obtain ⟨u, -, rfl⟩ := h
  exact List.mem_append_right _ (List.mem_singleton_self _)

lemma isPaired_nil : IsPaired [] := ⟨by simp, by simp⟩

lemma not_isPaired_newline (t : Text) : ¬ IsPaired (CodePoint.ofChar '\n' :: t) := fun h => by
  simpa using h.lf [] t rfl

lemma isPaired_return_cons {t : Text} :
    IsPaired (CodePoint.ofChar '\r' :: t) ↔ ∃ v, t = CodePoint.ofChar '\n' :: v ∧ IsPaired v := by
  constructor
  · intro h
    obtain ⟨v, rfl⟩ := List.head?_eq_some_iff.mp (h.cr [] t rfl)
    refine ⟨v, rfl, fun a b hab => ?_, fun a b hab => ?_⟩
    · have ha := h.lf (CodePoint.ofChar '\r' :: CodePoint.ofChar '\n' :: a) b (by simp [hab])
      rcases a with _ | ⟨c, a⟩
      · exact absurd ha (by decide)
      · simpa using ha
    · exact h.cr (CodePoint.ofChar '\r' :: CodePoint.ofChar '\n' :: a) b (by simp [hab])
  · rintro ⟨v, rfl, h⟩
    refine ⟨fun a b hab => ?_, fun a b hab => ?_⟩
    · rcases a with _ | ⟨c, _ | ⟨d, a⟩⟩
      · exact absurd (List.cons.inj hab).1 (by decide)
      · simp [(List.cons.inj hab).1]
      · have ha := h.lf a b (by simpa using (List.cons.inj (List.cons.inj hab).2).2)
        simp [List.getLast?_cons, ha]
    · rcases a with _ | ⟨c, _ | ⟨d, a⟩⟩
      · simp [← (List.cons.inj hab).2]
      · exact absurd (List.cons.inj (List.cons.inj hab).2).1 (by decide)
      · exact h.cr a b (by simpa using (List.cons.inj (List.cons.inj hab).2).2)

lemma isPaired_cons {c : CodePoint} (hr : c ≠ CodePoint.ofChar '\r')
    (hn : c ≠ CodePoint.ofChar '\n') {t : Text} : IsPaired (c :: t) ↔ IsPaired t := by
  constructor
  · refine fun h => ⟨fun a b hab => ?_, fun a b hab => h.cr (c :: a) b (by simp [hab])⟩
    have ha := h.lf (c :: a) b (by simp [hab])
    rcases a with _ | ⟨d, a⟩
    · exact absurd (Option.some.inj ha) hr
    · simpa using ha
  · refine fun h => ⟨fun a b hab => ?_, fun a b hab => ?_⟩
    · rcases a with _ | ⟨d, a⟩
      · exact absurd (List.cons.inj hab).1 hn
      · have ha := h.lf a b (List.cons.inj hab).2
        simp [List.getLast?_cons, ha]
    · rcases a with _ | ⟨d, a⟩
      · exact absurd (List.cons.inj hab).1 hr
      · exact h.cr a b (List.cons.inj hab).2

lemma endsInReturn_cons {c : CodePoint} (hr : c ≠ CodePoint.ofChar '\r') {l : Text} :
    EndsInReturn (c :: l) ↔ EndsInReturn l := by
  constructor
  · rintro ⟨_ | ⟨d, u⟩, hu, h⟩
    · exact absurd (List.cons.inj h).1 hr
    · exact ⟨u, fun hm => hu (List.mem_cons_of_mem _ hm), (List.cons.inj h).2⟩
  · rintro ⟨u, hu, rfl⟩
    exact ⟨c :: u, by simp [hu, hr.symm], rfl⟩

lemma endsInReturn_return_cons {l : Text} :
    EndsInReturn (CodePoint.ofChar '\r' :: l) ↔ l = [] := by
  constructor
  · rintro ⟨_ | ⟨d, u⟩, hu, h⟩
    · exact (List.cons.inj h).2
    · exact absurd ((List.cons.inj h).1 ▸ List.mem_cons_self) hu
  · rintro rfl
    exact ⟨[], by simp, rfl⟩

/-- **What ends a line is told by the line alone**, and by nothing in the lines behind it. -/
lemma isPaired_line_append {l : Text} (hl : CodePoint.ofChar '\n' ∉ l) (t : Text) :
    IsPaired (l ++ CodePoint.ofChar '\n' :: t) ↔ EndsInReturn l ∧ IsPaired t := by
  induction l with
  | nil =>
    refine iff_of_false (not_isPaired_newline t) ?_
    rintro ⟨⟨u, -, h⟩, -⟩
    exact absurd h (by simp [LineEnd.tail, ofChars])
  | cons c l ih =>
    simp only [List.mem_cons, not_or] at hl
    obtain ⟨hc, hl⟩ := hl
    rw [List.cons_append]
    by_cases hr : c = CodePoint.ofChar '\r'
    · rw [hr, isPaired_return_cons, endsInReturn_return_cons]
      rcases l with _ | ⟨d, l⟩
      · simp
      · have hd : d ≠ CodePoint.ofChar '\n' := fun h => hl (h ▸ List.mem_cons_self)
        simp [hd]
    · rw [isPaired_cons hr (Ne.symm hc), endsInReturn_cons hr, ih hl]

lemma isPaired_iff_of_not_mem {l : Text} (hl : CodePoint.ofChar '\n' ∉ l) :
    IsPaired l ↔ CodePoint.ofChar '\r' ∉ l := by
  induction l with
  | nil => simp [isPaired_nil]
  | cons c l ih =>
    simp only [List.mem_cons, not_or] at hl
    obtain ⟨hc, hl⟩ := hl
    by_cases hr : c = CodePoint.ofChar '\r'
    · rw [hr, isPaired_return_cons]
      refine iff_of_false ?_ (by simp)
      rintro ⟨v, rfl, -⟩
      exact hl List.mem_cons_self
    · rw [isPaired_cons hr (Ne.symm hc), ih hl, List.mem_cons, not_or, and_iff_right (Ne.symm hr)]

/-! ### Lines of such texts -/

lemma isPaired_written_append {ls : List Text} (h : ∀ l ∈ ls, CodePoint.ofChar '\n' ∉ l)
    (t : Text) : IsPaired (written ls ++ t) ↔ (∀ l ∈ ls, EndsInReturn l) ∧ IsPaired t := by
  induction ls with
  | nil => simp [written]
  | cons l ls ih =>
    obtain ⟨hl, hls⟩ := List.forall_mem_cons.mp h
    have hsplit : written (l :: ls) ++ t = l ++ CodePoint.ofChar '\n' :: (written ls ++ t) := by
      simp [written_cons, ofChars]
    rw [hsplit, isPaired_line_append hl, ih hls, List.forall_mem_cons, and_assoc]

lemma isPaired_join_ended {ls : List Text} (hne : ls ≠ [])
    (h : ∀ l ∈ ls, CodePoint.ofChar '\n' ∉ l) :
    IsPaired (join ls true) ↔ ∀ l ∈ ls, EndsInReturn l := by
  obtain ⟨init, l, rfl⟩ : ∃ init l, ls = init ++ [l] :=
    ⟨_, _, (List.dropLast_concat_getLast hne).symm⟩
  have hjoin : join (init ++ [l]) true = written (init ++ [l]) ++ [] := by
    rw [join_append init (by simp)]
    simp [written, join]
  rw [hjoin, isPaired_written_append h, and_iff_left isPaired_nil]

lemma isPaired_join_open {init : List Text} {l : Text}
    (h : ∀ x ∈ init ++ [l], CodePoint.ofChar '\n' ∉ x) :
    IsPaired (join (init ++ [l]) false) ↔
      (∀ x ∈ init, EndsInReturn x) ∧ CodePoint.ofChar '\r' ∉ l := by
  have hjoin : join (init ++ [l]) false = written init ++ l := join_append init (by simp) false
  rw [hjoin, isPaired_written_append fun x hx => h x (List.mem_append_left _ hx),
    isPaired_iff_of_not_mem (h l (by simp))]

lemma isPaired_join_iff_getLast? {ls : List Text} {l : Text} (hne : ls ≠ [])
    (h : ∀ x ∈ ls, CodePoint.ofChar '\n' ∉ x) (hends : ∀ x ∈ ls, x = l ∨ EndsInReturn x)
    (hl : CodePoint.ofChar '\r' ∉ l) (hcount : ls.count l ≤ 1) :
    IsPaired (join ls false) ↔ ls.getLast? = some l := by
  obtain ⟨init, x, rfl⟩ : ∃ init x, ls = init ++ [x] :=
    ⟨_, _, (List.dropLast_concat_getLast hne).symm⟩
  rw [isPaired_join_open h, List.getLast?_concat, Option.some.injEq]
  constructor
  · rintro ⟨-, hx⟩
    rcases hends x (by simp) with hxl | hret
    · exact hxl
    · exact absurd hret.mem hx
  · rintro rfl
    refine ⟨fun y hy => ?_, hl⟩
    have hinit : x ∉ init := by
      rw [List.count_append, List.count_singleton_self] at hcount
      exact List.count_eq_zero.mp (by omega)
    rcases hends y (List.mem_append_left _ hy) with hyx | hret
    · exact absurd (hyx ▸ hy) hinit
    · exact hret

lemma exists_eq_written_append (t : Text) : ∃ ls l, t = written ls ++ l ∧
    ∀ x ∈ ls ++ [l], CodePoint.ofChar '\n' ∉ x := by
  obtain ⟨ls, l, h⟩ : ∃ ls l, cutAt '\n' t = ls ++ [l] :=
    ⟨_, _, (List.dropLast_concat_getLast (cutAt_ne_nil _ t)).symm⟩
  refine ⟨ls, l, ?_, fun x hx => not_mem_of_mem_cutAt _ (h ▸ hx)⟩
  have hjoin : join (ls ++ [l]) false = written ls ++ l := join_append ls (by simp) false
  rw [← hjoin, ← h]
  exact (joinWith_cutAt _ t).symm

lemma countCrlf_of_isPaired {t : Text} (h : IsPaired t) : countCrlf t = countLf t := by
  obtain ⟨ls, l, rfl, hmem⟩ := exists_eq_written_append t
  obtain ⟨hls, hl⟩ := List.forall_mem_append.mp hmem
  have hl : CodePoint.ofChar '\n' ∉ l := hl l (List.mem_singleton_self l)
  have hends := ((isPaired_written_append hls l).mp h).1
  have hreturns : ls = (ls.map List.dropLast).map (· ++ LineEnd.crlf.tail) := by
    rw [List.map_map]
    refine ((List.map_congr_left fun x hx => ?_).trans (List.map_id ls)).symm
    obtain ⟨u, -, rfl⟩ := hends x hx
    simp [LineEnd.tail, ofChars]
  have hfronts : ∀ u ∈ ls.map List.dropLast, IsUnended u := by
    intro u hu
    obtain ⟨x, hx, rfl⟩ := List.mem_map.mp hu
    obtain ⟨u, hr, rfl⟩ := hends x hx
    have hdrop : (u ++ LineEnd.crlf.tail).dropLast = u := by simp [LineEnd.tail, ofChars]
    rw [hdrop]
    exact ⟨fun hm => hls _ hx (List.mem_append_left _ hm),
      fun c hc => is_eq_false_of_not_mem hr c (List.mem_of_mem_getLast? hc)⟩
  have hcount := countCrlf_written hfronts .crlf
  rw [← hreturns, if_pos rfl, List.length_map] at hcount
  rw [countCrlf_append (last_written ls), hcount, countCrlf_of_not_mem hl, countLf_append,
    countLf_written hls, countLf_of_not_mem hl]

lemma dominant_of_isPaired {t : Text} (h : IsPaired t) (hn : CodePoint.ofChar '\n' ∈ t) :
    dominant t = .crlf := by
  have hpos : 0 < countLf t := List.length_pos_iff.mpr
    (List.ne_nil_of_mem (List.mem_filter.mpr ⟨hn, by decide⟩))
  rw [dominant, countCrlf_of_isPaired h, if_pos (by omega)]

lemma countCrlf_of_return_not_mem {t : Text} (h : CodePoint.ofChar '\r' ∉ t) :
    countCrlf t = 0 := by
  fun_induction countCrlf t with
  | case1 => rfl
  | case2 => rfl
  | case3 c d t ih =>
    have hc := is_eq_false_of_not_mem h c List.mem_cons_self
    rw [hc, ih fun hm => h (List.mem_cons_of_mem _ hm)]
    rfl

lemma dominant_of_return_not_mem {t : Text} (h : CodePoint.ofChar '\r' ∉ t) :
    dominant t = .lf := by
  rw [dominant, countCrlf_of_return_not_mem h]
  rfl

end Lines

end Letterhead
