import Mathlib.Data.List.TakeWhile
import Letterhead.Text.Lines

/-!
Cutting a text into lines undoes joining them, but for one case: an empty last line that is not
ended leaves no trace but the line feed before it, and is read as the end of that line.
-/

namespace Letterhead

namespace Text

variable (mark : CodePoint)

lemma cutAt_ne_nil (t : Text) : cutAt mark t ≠ [] := by
  cases t with
  | nil => simp [cutAt]
  | cons c t =>
    unfold cutAt
    split
    · simp
    · split <;> simp

lemma not_mem_of_mem_cutAt {t part : Text} (h : part ∈ cutAt mark t) : mark ∉ part := by
  induction t generalizing part with
  | nil =>
    have : part = [] := by simpa [cutAt] using h
    simp [this]
  | cons c t ih =>
    unfold cutAt at h
    split at h
    · rcases List.mem_cons.mp h with rfl | h
      · simp
      · exact ih h
    · next hc =>
      split at h
      · have : part = [c] := by simpa using h
        simpa [this] using Ne.symm hc
      · next p ps heq =>
        rcases List.mem_cons.mp h with rfl | h
        · have hp : mark ∉ p := ih (by rw [heq]; exact List.mem_cons_self)
          simpa [hp] using Ne.symm hc
        · exact ih (by rw [heq]; exact List.mem_cons_of_mem _ h)

@[simp] lemma joinWith_nil : joinWith mark [] = [] := rfl
@[simp] lemma joinWith_singleton (t : Text) : joinWith mark [t] = t := rfl

lemma joinWith_cons (t : Text) {ts : List Text} (h : ts ≠ []) :
    joinWith mark (t :: ts) = t ++ mark :: joinWith mark ts := by
  cases ts with
  | nil => exact absurd rfl h
  | cons u us => rfl

lemma joinWith_concat {ts : List Text} (h : ts ≠ []) (t : Text) :
    joinWith mark (ts ++ [t]) = joinWith mark ts ++ mark :: t := by
  induction ts with
  | nil => exact absurd rfl h
  | cons u us ih =>
    rcases us with _ | ⟨v, vs⟩
    · rfl
    · have hvs : v :: vs ≠ [] := by simp
      rw [List.cons_append, joinWith_cons mark u (by simp), ih hvs, joinWith_cons mark u hvs,
        List.append_assoc, List.cons_append]

lemma cutAt_of_not_mem {t : Text} (h : mark ∉ t) : cutAt mark t = [t] := by
  induction t with
  | nil => rfl
  | cons c t ih =>
    simp only [List.mem_cons, not_or] at h
    obtain ⟨hc, ht⟩ := h
    rw [cutAt, if_neg (Ne.symm hc), ih ht]

lemma cutAt_append (t u : Text) :
    cutAt mark (t ++ mark :: u) = cutAt mark t ++ cutAt mark u := by
  induction t with
  | nil => simp [cutAt]
  | cons c t ih =>
    rw [List.cons_append, cutAt, ih, cutAt]
    split
    · rfl
    · rcases hparts : cutAt mark t with _ | ⟨part, parts⟩
      · exact absurd hparts (cutAt_ne_nil mark t)
      · rfl

lemma cutAt_append_mark {t : Text} (h : mark ∉ t) (u : Text) :
    cutAt mark (t ++ mark :: u) = t :: cutAt mark u := by
  rw [cutAt_append, cutAt_of_not_mem mark h, List.singleton_append]

/-- **Cutting undoes joining**, if no part has the mark. -/
lemma cutAt_joinWith {ts : List Text} (hne : ts ≠ []) (h : ∀ t ∈ ts, mark ∉ t) :
    cutAt mark (joinWith mark ts) = ts := by
  induction ts with
  | nil => exact absurd rfl hne
  | cons t ts ih =>
    obtain ⟨ht, hts⟩ := List.forall_mem_cons.mp h
    rcases ts with _ | ⟨u, us⟩
    · exact cutAt_of_not_mem mark ht
    · rw [joinWith_cons _ _ (by simp), cutAt_append_mark mark ht, ih (by simp) hts]

end Text

namespace Lines

open Text

lemma not_mem_of_mem_ofText {t l : Text} (h : l ∈ (ofText t).all) : CodePoint.ofChar '\n' ∉ l :=
  not_mem_of_mem_cutAt _ h

lemma all_ofText_ended (t : Text) : (ofText (t ++ ofChars ['\n'])).all = cutAt '\n' t := by
  have he : isEnded (t ++ ofChars ['\n']) = true := by simp [isEnded, ofChars]
  simp only [ofText, he, if_true]
  rw [show ofChars ['\n'] = [CodePoint.ofChar '\n'] from rfl, List.dropLast_concat]

lemma all_ofText_open {t : Text} (h : isEnded t = false) :
    (ofText t).all = cutAt '\n' t := by
  simp [ofText, h]

/-- **The lines of joined lines** are these lines, or all but the last one of them if that is
empty and the text was not ended. -/
lemma all_ofText_join {ls : List Text} (hne : ls ≠ [])
    (h : ∀ l ∈ ls, CodePoint.ofChar '\n' ∉ l) (ended : Bool) :
    (ofText (join ls ended)).all = ls ∨
      ∃ init, init ≠ [] ∧ ls = init ++ [[]] ∧ (ofText (join ls ended)).all = init := by
  cases ended with
  | true =>
    refine Or.inl ?_
    simp only [join, if_true]
    rw [all_ofText_ended, cutAt_joinWith _ hne h]
  | false =>
    have hj : join ls false = joinWith '\n' ls := rfl
    rw [hj]
    cases hend : isEnded (joinWith '\n' ls) with
    | false => exact Or.inl (by rw [all_ofText_open hend, cutAt_joinWith _ hne h])
    | true =>
      -- the last line has to be empty, and lies behind a line feed
      refine Or.inr ⟨ls.dropLast, ?_⟩
      obtain ⟨init, l, rfl⟩ : ∃ init l, ls = init ++ [l] :=
        ⟨ls.dropLast, ls.getLast hne, (List.dropLast_concat_getLast hne).symm⟩
      have hl : l = [] := by
        by_contra hl
        have hlast : (joinWith '\n' (init ++ [l])).getLast? = l.getLast? := by
          rcases init with _ | ⟨i, is⟩
          · rfl
          · rw [joinWith_concat _ (by simp), List.getLast?_append, List.getLast?_cons,
              List.getLast?_eq_some_getLast hl]
            simp
        rw [isEnded, hlast, List.getLast?_eq_some_getLast hl, beq_iff_eq,
          Option.some.injEq] at hend
        exact h l (by simp) (hend ▸ List.getLast_mem hl)
      subst hl
      have hinit : init ≠ [] := by
        rintro rfl
        simp [isEnded] at hend
      have hjoin : joinWith '\n' (init ++ [[]]) = joinWith '\n' init ++ ofChars ['\n'] :=
        joinWith_concat _ hinit []
      rw [List.dropLast_concat, hjoin, all_ofText_ended,
        cutAt_joinWith _ hinit fun l hl => h l (by simp [hl])]
      exact ⟨hinit, rfl, rfl⟩

end Lines

end Letterhead
