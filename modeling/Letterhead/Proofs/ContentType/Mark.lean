import Letterhead.ContentType
import Letterhead.Proofs.Text.LineEnd
import Letterhead.Proofs.Text.Piece

/-!
The marks of languages stand in single lines, so a text bears a mark if one of its pieces does.

A mark is read by readers, each of which takes something off the start of the text. A reader that
stops within the line is the same whatever follows the line. Only a clause of Go may go on in the
next line: the blanks between its words may be line feeds. A line in which it could is told by
`opensClause`.
-/

namespace Letterhead.ContentType

open Text

/-! ### Readers within a line -/

/-- What the reader does with a line does not depend on what follows the line, and it does not read
through the line feed. -/
def StopsInLine (f : Text → Option Text) : Prop :=
  ∀ l, (∀ r, f (l ++ CodePoint.ofChar '\n' :: r) = none) ∨
    ∃ l', ∀ r, f (l ++ CodePoint.ofChar '\n' :: r) = some (l' ++ CodePoint.ofChar '\n' :: r)

lemma StopsInLine.bind {f g : Text → Option Text} (hf : StopsInLine f) (hg : StopsInLine g) :
    StopsInLine fun t => (f t).bind g := by
  intro l
  rcases hf l with h | ⟨l', h⟩
  · exact Or.inl fun r => by simp [h]
  · simpa [h] using hg l'

lemma stopsInLine_dropHead? {head : Text} (h : CodePoint.ofChar '\n' ∉ head) :
    StopsInLine (dropHead? head) := by
  induction head with
  | nil => exact fun l => Or.inr ⟨l, fun r => rfl⟩
  | cons c head ih =>
    simp only [List.mem_cons, not_or] at h
    rintro (_ | ⟨d, l⟩)
    · exact Or.inl fun r => if_neg (Ne.symm h.1)
    · by_cases hcd : c = d
      · simpa [dropHead?, hcd] using ih h.2 l
      · exact Or.inl fun r => if_neg hcd

lemma dropWhile_append_newline {p : CodePoint → Bool} (hp : p (CodePoint.ofChar '\n') = false)
    (l r : Text) : (l ++ CodePoint.ofChar '\n' :: r).dropWhile p =
      l.dropWhile p ++ CodePoint.ofChar '\n' :: r := by
  induction l with
  | nil => simp [hp]
  | cons c l ih =>
    rw [List.cons_append, List.dropWhile_cons, List.dropWhile_cons]
    split
    · exact ih
    · rfl

lemma takeWhile_append_newline {p : CodePoint → Bool} (hp : p (CodePoint.ofChar '\n') = false)
    (l r : Text) : (l ++ CodePoint.ofChar '\n' :: r).takeWhile p = l.takeWhile p := by
  induction l with
  | nil => simp [hp]
  | cons c l ih =>
    rw [List.cons_append, List.takeWhile_cons, List.takeWhile_cons, ih]

lemma isWord_newline : (CodePoint.ofChar '\n').isWord = false := by decide

lemma stopsInLine_afterWord? : StopsInLine afterWord? := by
  rintro (_ | ⟨c, l⟩)
  · exact Or.inl fun r => by simp [afterWord?, isWord_newline]
  · cases hc : c.isWord with
    | false => exact Or.inl fun r => by simp [afterWord?, hc]
    | true =>
      exact Or.inr ⟨l.dropWhile CodePoint.isWord, fun r => by
        simp [afterWord?, hc, dropWhile_append_newline isWord_newline]⟩

lemma stopsInLine_afterStretch? {mark : Char}
    (hmark : (CodePoint.ofChar '\n').is mark = false) : StopsInLine (afterStretch? mark) := by
  intro l
  set inside : CodePoint → Bool := fun c => !c.is mark && !c.is '\n' with hinside
  set n := (l.takeWhile inside).length with hn
  have htake : ∀ r, (l ++ CodePoint.ofChar '\n' :: r).takeWhile inside = l.takeWhile inside :=
    takeWhile_append_newline (by rw [hinside]; simp [CodePoint.is, CodePoint.ofChar]) l
  have hdrop : ∀ r, (l ++ CodePoint.ofChar '\n' :: r).drop n =
      l.drop n ++ CodePoint.ofChar '\n' :: r := fun r =>
    List.drop_append_of_le_length (List.takeWhile_prefix inside).length_le
  unfold afterStretch?
  simp only [← hinside, htake, ← hn, hdrop]
  rcases l.drop n with _ | ⟨c, l'⟩
  · exact Or.inl fun r => by simp [hmark]
  · cases hc : decide (n ≠ 0) && c.is mark with
    | false => exact Or.inl fun r => by simp only [List.cons_append, hc]; rfl
    | true => exact Or.inr ⟨l', fun r => by simp only [List.cons_append, hc]; rfl⟩

lemma head?_append_newline (l r : Text) :
    (l ++ CodePoint.ofChar '\n' :: r).head? = (l ++ [CodePoint.ofChar '\n']).head? := by
  cases l <;> rfl

lemma StopsInLine.any_eq {f : Text → Option Text} (hf : StopsInLine f) {m : Text → Bool}
    (hm : ∀ l r, m (l ++ CodePoint.ofChar '\n' :: r) = m (l ++ [CodePoint.ofChar '\n']))
    (l r : Text) : (f (l ++ CodePoint.ofChar '\n' :: r)).any m =
      (f (l ++ [CodePoint.ofChar '\n'])).any m := by
  rcases hf l with h | ⟨l', h⟩
  · rw [h, h]
  · rw [h, h, Option.any_some, Option.any_some, hm]

/-! ### Tests at the start of a line -/

lemma anyLaterLineStart_of_not_mem (test : Text → Bool) {l : Text}
    (hl : CodePoint.ofChar '\n' ∉ l) (r : Text) :
    anyLineStart.anyLaterLineStart test (l ++ r) = anyLineStart.anyLaterLineStart test r := by
  induction l with
  | nil => rfl
  | cons c l ih =>
    rw [List.cons_append, anyLineStart.anyLaterLineStart,
      Lines.is_eq_false_of_not_mem hl c List.mem_cons_self,
      ih fun h => hl (List.mem_cons_of_mem _ h)]
    rfl

lemma splitsAt_anyLineStart {test : Text → Bool} {l : Text} (hl : CodePoint.ofChar '\n' ∉ l)
    (hnil : test [] = false)
    (h : ∀ r, test (l ++ CodePoint.ofChar '\n' :: r) = test (l ++ [CodePoint.ofChar '\n'])) :
    SplitsAt (anyLineStart test) l := by
  have hline : ∀ r, anyLineStart test (l ++ CodePoint.ofChar '\n' :: r) =
      (test (l ++ [CodePoint.ofChar '\n']) || anyLineStart test r) := by
    intro r
    rw [anyLineStart, anyLaterLineStart_of_not_mem test hl, h]
    rfl
  have hend : anyLineStart test [] = false := by
    rw [anyLineStart, hnil]
    rfl
  intro r
  rw [hline r, hline [], hend, Bool.or_false]

lemma anyLineStart_of_append (test : Text → Bool) (t : Text) {r : Text} (h : test r = true) :
    anyLineStart test (t ++ CodePoint.ofChar '\n' :: r) = true := by
  suffices hlater : anyLineStart.anyLaterLineStart test (t ++ CodePoint.ofChar '\n' :: r) = true by
    rw [anyLineStart, hlater, Bool.or_true]
  induction t with
  | nil =>
    rw [List.nil_append, anyLineStart.anyLaterLineStart, h]
    rfl
  | cons c t ih => rw [List.cons_append, anyLineStart.anyLaterLineStart, ih, Bool.or_true]

lemma isHeading_append_newline (l r : Text) :
    isHeading (l ++ CodePoint.ofChar '\n' :: r) = isHeading (l ++ [CodePoint.ofChar '\n']) :=
  (stopsInLine_dropHead? (by decide)).any_eq (fun l r => by rw [head?_append_newline]) l r

lemma isSubheading_append_newline (l r : Text) :
    isSubheading (l ++ CodePoint.ofChar '\n' :: r) =
      isSubheading (l ++ [CodePoint.ofChar '\n']) := by
  refine (stopsInLine_dropHead? (by decide)).any_eq (fun l r => ?_) l r
  have hhash : (CodePoint.ofChar '\n').is '#' = false := by decide
  rw [afterHashes, afterHashes, dropWhile_append_newline hhash, dropWhile_append_newline hhash,
    head?_append_newline]

lemma startsWith_append_newline {head : Text} (h : CodePoint.ofChar '\n' ∉ head) (l r : Text) :
    Text.startsWith (l ++ CodePoint.ofChar '\n' :: r) head =
      Text.startsWith (l ++ [CodePoint.ofChar '\n']) head := by
  rw [Bool.eq_iff_iff, Text.startsWith, Text.startsWith, List.isPrefixOf_iff_prefix,
    List.isPrefixOf_iff_prefix]
  constructor
  · exact fun hp => (prefix_of_prefix_append_cons h hp).trans (List.prefix_append _ _)
  · exact fun hp => (prefix_of_prefix_append_cons h hp).trans (List.prefix_append _ _)

lemma isFrontMatterKey_append_newline (l r : Text) :
    isFrontMatterKey (l ++ CodePoint.ofChar '\n' :: r) =
      isFrontMatterKey (l ++ [CodePoint.ofChar '\n']) := by
  unfold isFrontMatterKey
  simp only [List.any_cons, List.any_nil]
  simp only [startsWith_append_newline (show CodePoint.ofChar '\n' ∉ ofString "title:" by decide),
    startsWith_append_newline (show CodePoint.ofChar '\n' ∉ ofString "description:" by decide),
    startsWith_append_newline (show CodePoint.ofChar '\n' ∉ ofString "layout:" by decide),
    startsWith_append_newline (show CodePoint.ofChar '\n' ∉ ofString "page_title:" by decide),
    startsWith_append_newline (show CodePoint.ofChar '\n' ∉ ofString "subcategory:" by decide)]

/-! ### Links -/

lemma isLink_append_newline (l r : Text) :
    isLink (l ++ CodePoint.ofChar '\n' :: r) = isLink (l ++ [CodePoint.ofChar '\n']) := by
  rcases l with _ | ⟨c, l⟩
  · rfl
  · have hread : StopsInLine fun t => ((afterStretch? ']' t).bind (dropHead? "(")).bind
        (afterStretch? ')') :=
      ((stopsInLine_afterStretch? (by decide)).bind (stopsInLine_dropHead? (by decide))).bind
        (stopsInLine_afterStretch? (by decide))
    have hsome := hread.any_eq (m := fun _ => true) (fun _ _ => rfl) l r
    simp only [Option.any_true] at hsome
    exact congrArg (c.is '[' && ·) hsome

lemma splitsAt_hasLink (l : Text) : SplitsAt hasLink l := by
  intro r
  induction l with
  | nil => rfl
  | cons c l ih =>
    have hlink := isLink_append_newline (c :: l) r
    rw [List.cons_append] at hlink ⊢
    rw [hasLink, ih, hlink, ← Bool.or_assoc]
    rfl

end Letterhead.ContentType
