import Letterhead.Proofs.Text.Lines

/-!
Lines that are put into a text, ended as most of its lines are, are read again as they were put
there: they change neither what most lines end in nor whether the last line is ended.
-/

namespace Letterhead

namespace Text

variable (mark : CodePoint)

lemma joinWith_append (ts : List Text) {us : List Text} (h : us ≠ []) :
    joinWith mark (ts ++ us) = ts.flatMap (· ++ [mark]) ++ joinWith mark us := by
  induction ts with
  | nil => rfl
  | cons t ts ih =>
    rw [List.cons_append, joinWith_cons mark t (by simp [h]), ih, List.flatMap_cons,
      List.append_assoc, List.append_assoc]
    rfl

lemma eq_nil_of_joinWith_eq_nil {ts : List Text} (h : joinWith mark ts = []) :
    ∀ t ∈ ts, t = [] := by
  rcases ts with _ | ⟨t, _ | ⟨u, us⟩⟩
  · simp
  · simpa using h
  · rw [joinWith_cons mark t (by simp)] at h
    simp at h

/-- **Joining undoes cutting.** -/
lemma joinWith_cutAt (t : Text) : joinWith mark (cutAt mark t) = t := by
  induction t with
  | nil => rfl
  | cons c t ih =>
    have hne := cutAt_ne_nil mark t
    rw [cutAt]
    split
    · next hc => rw [joinWith_cons mark [] hne, ih, hc, List.nil_append]
    · split
      · next h => exact absurd h hne
      · next p ps h =>
        rw [h] at ih
        rcases ps with _ | ⟨q, qs⟩
        · rw [joinWith_singleton] at ih ⊢
          rw [ih]
        · rw [joinWith_cons mark _ (by simp)] at ih ⊢
          rw [List.cons_append, ih]

end Text

namespace Lines

open Text

/-- Lines, each with a line feed. -/
def written (ls : List Text) : Text := ls.flatMap (· ++ ofChars ['\n'])

lemma join_append (ts : List Text) {us : List Text} (h : us ≠ []) (ended : Bool) :
    join (ts ++ us) ended = written ts ++ join us ended := by
  unfold join written
  rw [joinWith_append _ _ h]
  cases ended <;> simp [ofChars]

lemma toText_ofText (t : Text) : (ofText t).toText = t := by
  unfold toText join ofText
  simp only [joinWith_cutAt]
  split
  · next h =>
    obtain ⟨u, rfl⟩ := List.getLast?_eq_some_iff.mp (by simpa [isEnded] using h)
    rw [List.dropLast_concat]
    rfl
  · rfl

lemma all_ofText_join_of_isEnded {ls : List Text} {ended : Bool} (hne : ls ≠ [])
    (h : ∀ l ∈ ls, CodePoint.ofChar '\n' ∉ l) (he : isEnded (join ls ended) = ended) :
    (ofText (join ls ended)).all = ls := by
  cases ended with
  | true => exact (all_ofText_ended _).trans (cutAt_joinWith _ hne h)
  | false => exact (all_ofText_open he).trans (cutAt_joinWith _ hne h)

lemma join_inj {ls ls' : List Text} {ended : Bool} (hne : ls ≠ []) (hne' : ls' ≠ [])
    (h : ∀ l ∈ ls, CodePoint.ofChar '\n' ∉ l) (h' : ∀ l ∈ ls', CodePoint.ofChar '\n' ∉ l)
    (heq : join ls ended = join ls' ended) : ls = ls' := by
  have hjoin : joinWith (CodePoint.ofChar '\n') ls = joinWith (CodePoint.ofChar '\n') ls' := by
    cases ended with
    | true => exact List.append_cancel_right heq
    | false => exact heq
  rw [← cutAt_joinWith _ hne h, hjoin, cutAt_joinWith _ hne' h']

lemma mem_joinWith {mark c : CodePoint} (hc : c ≠ mark) {ls : List Text} :
    c ∈ joinWith mark ls ↔ ∃ l ∈ ls, c ∈ l := by
  induction ls with
  | nil => simp
  | cons l ls ih =>
    rcases ls with _ | ⟨m, ls⟩
    · simp
    · rw [joinWith_cons mark l (by simp), List.mem_append, List.mem_cons, ih]
      simp [hc]

lemma mem_join {c : CodePoint} (hc : c ≠ CodePoint.ofChar '\n') {ls : List Text} (ended : Bool) :
    c ∈ join ls ended ↔ ∃ l ∈ ls, c ∈ l := by
  unfold join
  cases ended with
  | false => exact mem_joinWith hc
  | true =>
    rw [if_pos rfl, List.mem_append, mem_joinWith hc]
    simp [ofChars, hc]

lemma join_eq_append (pre : List Text) (l : Text) (post : List Text) (ended : Bool) :
    ∃ v, join (pre ++ l :: post) ended = l ++ v ∨
      ∃ u, join (pre ++ l :: post) ended = u ++ CodePoint.ofChar '\n' :: (l ++ v) := by
  obtain ⟨v, hv⟩ : ∃ v, join (l :: post) ended = l ++ v := by
    rcases post with _ | ⟨m, post⟩
    · cases ended
      · exact ⟨[], by simp [join]⟩
      · exact ⟨ofChars ['\n'], rfl⟩
    · exact ⟨_, (join_append [l] (by simp) ended).trans (by
        rw [written, List.flatMap_singleton, List.append_assoc])⟩
  refine ⟨v, ?_⟩
  rw [join_append pre (by simp) ended, hv]
  rcases List.eq_nil_or_concat pre with rfl | ⟨pre, m, rfl⟩
  · exact Or.inl rfl
  · refine Or.inr ⟨written pre ++ m, ?_⟩
    simp [written, ofChars]

/-! ### Line ends -/

@[simp] lemma countLf_append (t u : Text) : countLf (t ++ u) = countLf t + countLf u := by
  simp [countLf]

/-- What ends a line behind a part of the text is not told across the end of the part, unless that
is a carriage return. -/
lemma countCrlf_append {t : Text} (h : ∀ c ∈ t.getLast?, c.is '\r' = false) (u : Text) :
    countCrlf (t ++ u) = countCrlf t + countCrlf u := by
  induction t with
  | nil => simp [countCrlf]
  | cons c t ih =>
    rcases t with _ | ⟨d, t⟩
    · have hc : c.is '\r' = false := h c rfl
      rcases u with _ | ⟨d, u⟩
      · rfl
      · simp [countCrlf, hc]
    · have := ih fun x hx => h x (by simpa using hx)
      rw [List.cons_append] at this ⊢
      rw [List.cons_append, countCrlf, this, countCrlf, Nat.add_assoc]

lemma written_cons (l : Text) (ls : List Text) :
    written (l :: ls) = l ++ ofChars ['\n'] ++ written ls :=
  rfl

lemma is_eq_false_of_not_mem {ch : Char} {t : Text} (h : CodePoint.ofChar ch ∉ t) :
    ∀ c ∈ t, c.is ch = false := by
  intro c hc
  by_contra his
  have hval : c.val = ch.toNat := by simpa [CodePoint.is] using his
  have hc' : c = CodePoint.ofChar ch := by
    cases c
    simpa [CodePoint.ofChar] using hval
  exact h (hc' ▸ hc)

lemma countLf_of_not_mem {t : Text} (h : CodePoint.ofChar '\n' ∉ t) : countLf t = 0 := by
  simp only [countLf, List.length_eq_zero_iff, List.filter_eq_nil_iff]
  exact fun c hc => by simp [is_eq_false_of_not_mem h c hc]

lemma countLf_written {ls : List Text} (h : ∀ l ∈ ls, CodePoint.ofChar '\n' ∉ l) :
    countLf (written ls) = ls.length := by
  induction ls with
  | nil => rfl
  | cons l ls ih =>
    obtain ⟨hl, hls⟩ := List.forall_mem_cons.mp h
    rw [written_cons, countLf_append, countLf_append, countLf_of_not_mem hl, ih hls,
      List.length_cons, show countLf (ofChars ['\n']) = 1 from rfl]
    omega

lemma last_written (ls : List Text) : ∀ c ∈ (written ls).getLast?, c.is '\r' = false := by
  rcases List.eq_nil_or_concat ls with rfl | ⟨ls, l, rfl⟩
  · simp [written]
  · intro c hc
    have hlast : (written (ls.concat l)).getLast? = some (CodePoint.ofChar '\n') := by
      simp [written, ofChars]
    rw [hlast] at hc
    obtain rfl := Option.some.inj hc
    decide

lemma countCrlf_of_not_mem {t : Text} (h : CodePoint.ofChar '\n' ∉ t) : countCrlf t = 0 := by
  induction t with
  | nil => rfl
  | cons c t ih =>
    rcases t with _ | ⟨d, t⟩
    · rfl
    · have hd := is_eq_false_of_not_mem h d (by simp)
      rw [countCrlf, hd, Bool.and_false, ih fun hm => h (List.mem_cons_of_mem _ hm)]
      rfl

/-- The line does not hold a line feed, nor does it end in a carriage return. -/
structure IsUnended (l : Text) : Prop where
  not_mem : CodePoint.ofChar '\n' ∉ l
  last : ∀ c ∈ l.getLast?, c.is '\r' = false

instance (l : Text) : Decidable (IsUnended l) :=
  decidable_of_iff (CodePoint.ofChar '\n' ∉ l ∧ ∀ c ∈ l.getLast?, c.is '\r' = false)
    ⟨fun h => ⟨h.1, h.2⟩, fun h => ⟨h.not_mem, h.last⟩⟩

lemma countCrlf_line {l : Text} (hl : IsUnended l) (e : LineEnd) :
    countCrlf (l ++ e.tail ++ ofChars ['\n']) = if e = .crlf then 1 else 0 := by
  rw [List.append_assoc, countCrlf_append hl.last, countCrlf_of_not_mem hl.not_mem]
  cases e <;> decide

lemma countCrlf_written {ls : List Text} (h : ∀ l ∈ ls, IsUnended l) (e : LineEnd) :
    countCrlf (written (ls.map (· ++ e.tail))) = if e = .crlf then ls.length else 0 := by
  induction ls with
  | nil => simp [written, countCrlf]
  | cons l ls ih =>
    obtain ⟨hl, hls⟩ := List.forall_mem_cons.mp h
    have hlast : ∀ c ∈ (l ++ e.tail ++ ofChars ['\n']).getLast?, c.is '\r' = false := by
      intro c hc
      obtain rfl : CodePoint.ofChar '\n' = c := by simpa [ofChars] using hc
      decide
    rw [List.map_cons, written_cons, countCrlf_append hlast, countCrlf_line hl, ih hls]
    split
    · rw [List.length_cons, Nat.add_comm]
    · rfl

lemma not_mem_tail (e : LineEnd) : CodePoint.ofChar '\n' ∉ e.tail := by
  cases e <;> decide

lemma dominant_insert {t u : Text} {ins : List Text} (ht : ∀ c ∈ t.getLast?, c.is '\r' = false)
    (h : ∀ l ∈ ins, IsUnended l) :
    dominant (t ++ written (ins.map (· ++ (dominant (t ++ u)).tail)) ++ u) = dominant (t ++ u) := by
  set e := dominant (t ++ u) with he
  have hlf : countLf (written (ins.map (· ++ e.tail))) = ins.length := by
    rw [countLf_written, List.length_map]
    intro l hl
    obtain ⟨x, hx, rfl⟩ := List.mem_map.mp hl
    simp [(h x hx).not_mem, not_mem_tail]
  have hcrlf := countCrlf_written h e
  unfold dominant at he ⊢
  rw [List.append_assoc, countCrlf_append ht, countCrlf_append (last_written _), countLf_append,
    countLf_append, hlf, hcrlf]
  rw [countCrlf_append ht, countLf_append] at he
  dsimp only at he ⊢
  split at he
  · rw [if_pos he, if_pos (by omega), he]
  · rw [if_neg (by simp [he] : ¬ e = .crlf), if_neg (by omega), he]

lemma join_ne_nil {ls : List Text} (h : ∃ l ∈ ls, l ≠ []) (ended : Bool) : join ls ended ≠ [] := by
  obtain ⟨l, hl, hl'⟩ := h
  intro hnil
  unfold join at hnil
  split at hnil
  · simp [ofChars] at hnil
  · exact hl' (eq_nil_of_joinWith_eq_nil _ hnil l hl)

lemma isEnded_append_of_ne_nil (v : Text) {w : Text} (hw : w ≠ []) :
    isEnded (v ++ w) = isEnded w := by
  rw [isEnded, isEnded, List.getLast?_append, List.getLast?_eq_some_getLast hw, Option.some_or]

lemma insert_not_mem {t : Text} {pre ins post : List Text} (ht : (ofText t).all = pre ++ post)
    (h : ∀ l ∈ ins, IsUnended l) (e : LineEnd) :
    ∀ l ∈ pre ++ ins.map (· ++ e.tail) ++ post, CodePoint.ofChar '\n' ∉ l := by
  have hlines : ∀ l ∈ pre ++ post, CodePoint.ofChar '\n' ∉ l := fun l hl =>
    not_mem_of_mem_ofText (ht ▸ hl)
  intro l hl
  simp only [List.mem_append, List.mem_map] at hl
  rcases hl with (hl | ⟨x, hx, rfl⟩) | hl
  · exact hlines l (List.mem_append_left _ hl)
  · simp [(h x hx).not_mem, not_mem_tail]
  · exact hlines l (List.mem_append_right _ hl)

/-- **Lines that are put into a text are read as they were put there**, if they end as most lines
do and something stands behind them. -/
theorem ofText_insert {t : Text} {pre ins post : List Text} (ht : (ofText t).all = pre ++ post)
    (hpost : ∃ l ∈ post, l ≠ []) (h : ∀ l ∈ ins, IsUnended l) :
    ofText (join (pre ++ ins.map (· ++ (ofText t).lineEnd.tail) ++ post) (ofText t).ended) =
      ⟨pre ++ ins.map (· ++ (ofText t).lineEnd.tail) ++ post, (ofText t).lineEnd,
        (ofText t).ended⟩ := by
  have hne : post ≠ [] := fun h => by simp [h] at hpost
  have hold : t = written pre ++ join post (ofText t).ended := by
    rw [← join_append pre hne, ← ht]
    exact (toText_ofText t).symm
  have hbehind : join post (ofText t).ended ≠ [] := join_ne_nil hpost _
  set e := (ofText t).lineEnd
  set ended := (ofText t).ended
  have hnew : join (pre ++ ins.map (· ++ e.tail) ++ post) ended =
      written pre ++ written (ins.map (· ++ e.tail)) ++ join post ended := by
    rw [join_append _ hne, written, List.flatMap_append]
    rfl
  -- what stands behind is not empty, so it alone decides how the text ends
  have hend : isEnded (join (pre ++ ins.map (· ++ e.tail) ++ post) ended) = ended :=
    calc isEnded (join (pre ++ ins.map (· ++ e.tail) ++ post) ended)
        = isEnded (join post ended) := by rw [hnew, isEnded_append_of_ne_nil _ hbehind]
      _ = isEnded t := by rw [hold, isEnded_append_of_ne_nil _ hbehind]
      _ = ended := rfl
  have hdominant : dominant (join (pre ++ ins.map (· ++ e.tail) ++ post) ended) = e := by
    have he' : e = dominant (written pre ++ join post ended) := congrArg dominant hold
    rw [hnew, he']
    exact dominant_insert (last_written pre) h
  have hall := all_ofText_join_of_isEnded (by simp [hne]) (insert_not_mem ht h e) hend
  calc ofText (join (pre ++ ins.map (· ++ e.tail) ++ post) ended)
      = ⟨(ofText (join (pre ++ ins.map (· ++ e.tail) ++ post) ended)).all,
          dominant (join (pre ++ ins.map (· ++ e.tail) ++ post) ended),
          isEnded (join (pre ++ ins.map (· ++ e.tail) ++ post) ended)⟩ := rfl
    _ = _ := by rw [hall, hdominant, hend]

end Lines

end Letterhead
