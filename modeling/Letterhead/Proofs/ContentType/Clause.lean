import Letterhead.Proofs.ContentType.Mark
import Letterhead.Proofs.Text.Trim

/-!
Clauses of Go, whose words are parted by blanks, and so perhaps by line feeds.

A line in which a clause starts that may go on behind the line is told by `opensClause`: it has a
keyword and blanks only, or a type's name and blanks only. For any other line, what the marks of Go
say does not depend on what follows.
-/

namespace Letterhead.ContentType

open Text

/-- A clause of Go starts with the text, and the word that has to come next is not there. -/
def opensClause (t : Text) : Bool :=
  ["package", "func", "import", "type"].any (fun word => (dropHead? word t).any isBlank) ||
    ((afterKeyword? "type" t).bind afterWord?).any isBlank

section Line

variable {l : Text}

/-- Blanks before something else are read, and what follows the line is not. -/
lemma afterBlanks?_append_newline (hl : isBlank (l ++ [CodePoint.ofChar '\n']) = false) :
    (∀ r, afterBlanks? (l ++ CodePoint.ofChar '\n' :: r) = none) ∨
      ∃ l', ∀ r, afterBlanks? (l ++ CodePoint.ofChar '\n' :: r) =
        some (l' ++ CodePoint.ofChar '\n' :: r) := by
  rcases l with _ | ⟨c, l⟩
  · exact absurd hl (by decide)
  · cases hc : c.isBlank with
    | false => exact Or.inl fun r => by simp [afterBlanks?, hc]
    | true =>
      have hb : isBlank l = false := by
        have hnewline : isBlank [CodePoint.ofChar '\n'] = true := by decide
        rw [List.cons_append, isBlank, List.all_cons, hc, Bool.true_and] at hl
        rwa [show List.all _ _ = isBlank (l ++ [CodePoint.ofChar '\n']) from rfl, isBlank_append,
          hnewline, Bool.and_true] at hl
      exact Or.inr ⟨trimLeft l, fun r => by simp [afterBlanks?, hc, trimLeft_append hb]⟩

lemma afterKeyword?_append_newline (word : String) (hword : CodePoint.ofChar '\n' ∉ ofString word)
    (h : (dropHead? word (l ++ [CodePoint.ofChar '\n'])).any isBlank = false) :
    (∀ r, afterKeyword? word (l ++ CodePoint.ofChar '\n' :: r) = none) ∨
      ∃ l', ∀ r, afterKeyword? word (l ++ CodePoint.ofChar '\n' :: r) =
        some (l' ++ CodePoint.ofChar '\n' :: r) := by
  rcases stopsInLine_dropHead? hword l with hn | ⟨l', hs⟩
  · exact Or.inl fun r => by rw [afterKeyword?, hn]; rfl
  · rw [hs [], Option.any_some] at h
    simpa only [afterKeyword?, hs, Option.bind_some] using afterBlanks?_append_newline h

lemma blankLineEnd_append_newline (l r : Text) :
    blankLineEnd (l ++ CodePoint.ofChar '\n' :: r) =
      blankLineEnd (l ++ [CodePoint.ofChar '\n']) := by
  have hnewline : (CodePoint.ofChar '\n').isBlank = true := by decide
  cases hl : isBlank l with
  | true =>
    have htrue : ∀ r, blankLineEnd (l ++ CodePoint.ofChar '\n' :: r) = true := by
      intro r
      have htake : (l ++ CodePoint.ofChar '\n' :: r).takeWhile CodePoint.isBlank =
          l ++ CodePoint.ofChar '\n' :: r.takeWhile CodePoint.isBlank := by
        rw [List.takeWhile_append_of_pos (List.all_eq_true.mp hl), List.takeWhile_cons, hnewline]
        rfl
      have his : (CodePoint.ofChar '\n').is '\n' = true := by decide
      simp only [blankLineEnd, htake, List.any_append, List.any_cons, his, Bool.true_or,
        Bool.or_true]
    rw [htrue, htrue]
  | false =>
    have hline : ∀ r, blankLineEnd (l ++ CodePoint.ofChar '\n' :: r) =
        (l.takeWhile CodePoint.isBlank).any (·.is '\n') := by
      intro r
      have hlen : (l.takeWhile CodePoint.isBlank).length < l.length := by
        refine lt_of_le_of_ne (List.takeWhile_prefix _).length_le fun he => ?_
        have := (List.takeWhile_prefix CodePoint.isBlank (l := l)).eq_of_length he
        rw [List.takeWhile_eq_self_iff] at this
        rw [isBlank, List.all_eq_true.mpr this] at hl
        cases hl
      have htake : (l ++ CodePoint.ofChar '\n' :: r).takeWhile CodePoint.isBlank =
          l.takeWhile CodePoint.isBlank := by
        rw [List.takeWhile_append, if_neg (Nat.ne_of_lt hlen)]
      have hne : ¬ (l.takeWhile CodePoint.isBlank).length =
          (l ++ CodePoint.ofChar '\n' :: r).length := by
        rw [List.length_append]
        omega
      simp only [blankLineEnd, htake, decide_eq_false hne, Bool.false_or]
    rw [hline, hline]

variable (h : opensClause (l ++ [CodePoint.ofChar '\n']) = false) (r : Text)

include h

lemma keyword_closed {word : String} (hword : word ∈ ["package", "func", "import", "type"]) :
    (dropHead? word (l ++ [CodePoint.ofChar '\n'])).any isBlank = false := by
  rw [opensClause, Bool.or_eq_false_iff] at h
  simpa using List.any_eq_false.mp h.1 word hword

lemma isPackageClause_append_newline :
    isPackageClause (l ++ CodePoint.ofChar '\n' :: r) =
      isPackageClause (l ++ [CodePoint.ofChar '\n']) := by
  rcases afterKeyword?_append_newline "package" (by decide)
    (keyword_closed h (by simp)) with hn | ⟨l', hs⟩
  · rw [isPackageClause, isPackageClause, hn, hn]
  · rw [isPackageClause, isPackageClause, hs, hs]
    exact stopsInLine_afterWord?.any_eq blankLineEnd_append_newline l' r

lemma isFunction_append_newline :
    isFunction (l ++ CodePoint.ofChar '\n' :: r) = isFunction (l ++ [CodePoint.ofChar '\n']) := by
  rcases afterKeyword?_append_newline "func" (by decide)
    (keyword_closed h (by simp)) with hn | ⟨l', hs⟩
  · rw [isFunction, isFunction, hn, hn]
  · rw [isFunction, isFunction, hs, hs, Option.any_some, Option.any_some, head?_append_newline]

lemma isImport_append_newline :
    isImport (l ++ CodePoint.ofChar '\n' :: r) = isImport (l ++ [CodePoint.ofChar '\n']) := by
  rcases afterKeyword?_append_newline "import" (by decide)
    (keyword_closed h (by simp)) with hn | ⟨l', hs⟩
  · rw [isImport, isImport, hn, hn]
  · rw [isImport, isImport, hs, hs, Option.any_some, Option.any_some, head?_append_newline]

lemma isStruct_append_newline :
    isStruct (l ++ CodePoint.ofChar '\n' :: r) = isStruct (l ++ [CodePoint.ofChar '\n']) := by
  have hname : ((afterKeyword? "type" (l ++ [CodePoint.ofChar '\n'])).bind afterWord?).any isBlank =
      false := by
    rw [opensClause, Bool.or_eq_false_iff] at h
    exact h.2
  rcases afterKeyword?_append_newline "type" (by decide)
    (keyword_closed h (by simp)) with hn | ⟨l', hs⟩
  · rw [isStruct, isStruct, hn, hn]
  rw [hs, Option.bind_some] at hname
  rw [isStruct, isStruct, hs, hs, Option.bind_some, Option.bind_some]
  rcases stopsInLine_afterWord? l' with hn | ⟨l₂, hs⟩
  · rw [hn, hn]
  rw [hs, Option.any_some] at hname
  rw [hs, hs, Option.bind_some, Option.bind_some]
  rcases afterBlanks?_append_newline hname with hn | ⟨l₃, hs⟩
  · rw [hn, hn]
  · rw [hs, hs, Option.any_some, Option.any_some]
    exact (stopsInLine_dropHead? (by decide)).any_eq
      (fun l r => by rw [head?_append_newline]) l₃ r

/-- **The marks of Go are told apart by lines**, but for lines in which a clause is left open. -/
lemma splitsAt_looksLikeGo (hl : CodePoint.ofChar '\n' ∉ l) : SplitsAt looksLikeGo l :=
  (((splitsAt_anyLineStart hl (by rfl) (isPackageClause_append_newline h)).or
    (splitsAt_anyLineStart hl (by rfl) (isFunction_append_newline h))).or
    (splitsAt_anyLineStart hl (by rfl) (isImport_append_newline h))).or
    (splitsAt_anyLineStart hl (by rfl) (isStruct_append_newline h))

end Line

end Letterhead.ContentType
