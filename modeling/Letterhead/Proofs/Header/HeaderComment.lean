import Mathlib.Data.List.TakeWhile
import Letterhead.Header.Normalize
import Letterhead.Proofs.Text.Trim

/-!
Comments that go as a whole when a file is rebuilt: a line that is but an opening mark, and the
lines behind it through the one that ends in the closing mark, if all of them are header material.
-/

namespace Letterhead.Settings

variable (s : Settings)

/-- The line closes a comment. -/
def closes (closer l : Text) : Bool := (Text.dropTail? closer l.trim).isSome

/-- The text of a line within a comment, before the mark that closes the comment. -/
def innerText (closer l : Text) : Text := (Text.dropTail? closer l.trim).getD l.trim

@[simp] lemma closerOf?_append_tail (l : Text) (e : LineEnd) :
    CommentStyle.closerOf? (l ++ e.tail) = CommentStyle.closerOf? l := by
  simp [CommentStyle.closerOf?]

@[simp] lemma closes_append_tail (closer l : Text) (e : LineEnd) :
    closes closer (l ++ e.tail) = closes closer l := by
  simp [closes]

@[simp] lemma innerText_append_tail (closer l : Text) (e : LineEnd) :
    innerText closer (l ++ e.tail) = innerText closer l := by
  simp [innerText]

/-- Lines `a` to `b` are a comment of nothing but header material: a line that is but the opening
mark, and the lines behind it through the first one that ends in the closing mark. -/
structure IsHeaderComment (closer : Text) (es : List Entry) (a b : Nat) : Prop where
  opens : ∃ e ∈ es[a]?, CommentStyle.closerOf? e.1 = some closer
  lt : a < b
  closed : ∃ e ∈ es[b]?, closes closer e.1 = true
  first : ∀ j, a < j → j < b → ∀ e ∈ es[j]?, closes closer e.1 = false
  material : ∀ j, a < j → j ≤ b → ∀ e ∈ es[j]?,
    s.isMaterial e.2 (innerText closer e.1) = true
  /-- One of the lines is more than filler. -/
  found : ∃ j, a < j ∧ j ≤ b ∧ ∃ e ∈ es[j]?, isFiller (innerText closer e.1) = false

lemma materialThrough_cons (closer : Text) (found : Bool) (l : Text) (k : LineKind)
    (es : List Entry) :
    s.materialThrough closer found ((l, k) :: es) =
      if s.isMaterial k (innerText closer l) then
        if closes closer l then
          if found || !isFiller (innerText closer l) then some 1 else none
        else (s.materialThrough closer (found || !isFiller (innerText closer l)) es).map (· + 1)
      else none := by
  rw [materialThrough]
  rfl

/-- Line `m` is the first that closes a comment, and the lines through it are header material. -/
structure EndsAt (closer : Text) (es : List Entry) (m : Nat) : Prop where
  closed : ∃ e ∈ es[m]?, closes closer e.1 = true
  first : ∀ j < m, ∀ e ∈ es[j]?, closes closer e.1 = false
  material : ∀ j ≤ m, ∀ e ∈ es[j]?, s.isMaterial e.2 (innerText closer e.1) = true

/-- Something that is more than filler is found through line `m`, or was before. -/
def FoundThrough (closer : Text) (found : Bool) (es : List Entry) (m : Nat) : Prop :=
  found = true ∨ ∃ j ≤ m, ∃ e ∈ es[j]?, isFiller (innerText closer e.1) = false

section Cons

variable {s} {closer l : Text} {k : LineKind} {es : List Entry} {found : Bool} {m : Nat}

lemma endsAt_zero_iff :
    s.EndsAt closer ((l, k) :: es) 0 ↔
      closes closer l = true ∧ s.isMaterial k (innerText closer l) = true := by
  constructor
  · rintro ⟨⟨e, he, hc⟩, -, hm⟩
    obtain rfl : (l, k) = e := by simpa using he
    exact ⟨hc, hm 0 (Nat.le_refl _) (l, k) rfl⟩
  · rintro ⟨hc, hm⟩
    refine ⟨⟨(l, k), rfl, hc⟩, by simp, ?_⟩
    rintro j hj e he
    obtain rfl : j = 0 := by omega
    obtain rfl : (l, k) = e := by simpa using he
    exact hm

lemma endsAt_succ_iff :
    s.EndsAt closer ((l, k) :: es) (m + 1) ↔
      closes closer l = false ∧ s.isMaterial k (innerText closer l) = true ∧
        s.EndsAt closer es m := by
  constructor
  · rintro ⟨hc, hf, hm⟩
    exact ⟨hf 0 (by omega) (l, k) rfl, hm 0 (by omega) (l, k) rfl, hc,
      fun j hj => hf (j + 1) (by omega), fun j hj => hm (j + 1) (by omega)⟩
  · rintro ⟨hl, hk, hc, hf, hm⟩
    refine ⟨hc, ?_, ?_⟩
    · rintro (_ | j) hj e he
      · obtain rfl : (l, k) = e := by simpa using he
        exact hl
      · exact hf j (by omega) e he
    · rintro (_ | j) hj e he
      · obtain rfl : (l, k) = e := by simpa using he
        exact hk
      · exact hm j (by omega) e he

lemma foundThrough_zero_iff :
    FoundThrough closer found ((l, k) :: es) 0 ↔
      (found || !isFiller (innerText closer l)) = true := by
  rw [Bool.or_eq_true, Bool.not_eq_true']
  refine or_congr_right ⟨?_, fun h => ⟨0, Nat.le_refl _, (l, k), rfl, h⟩⟩
  rintro ⟨j, hj, e, he, h⟩
  obtain rfl : j = 0 := by omega
  obtain rfl : (l, k) = e := by simpa using he
  exact h

lemma foundThrough_succ_iff :
    FoundThrough closer found ((l, k) :: es) (m + 1) ↔
      FoundThrough closer (found || !isFiller (innerText closer l)) es m := by
  unfold FoundThrough
  rw [Bool.or_eq_true, Bool.not_eq_true', or_assoc]
  refine or_congr_right ⟨?_, ?_⟩
  · rintro ⟨_ | j, hj, e, he, h⟩
    · obtain rfl : (l, k) = e := by simpa using he
      exact Or.inl h
    · exact Or.inr ⟨j, by omega, e, he, h⟩
  · rintro (h | ⟨j, hj, e, he, h⟩)
    · exact ⟨0, Nat.zero_le _, (l, k), rfl, h⟩
    · exact ⟨j + 1, by omega, e, he, h⟩

end Cons

lemma materialThrough_eq_some_iff {closer : Text} {found : Bool} {es : List Entry} {n : Nat} :
    s.materialThrough closer found es = some n ↔
      ∃ m, n = m + 1 ∧ s.EndsAt closer es m ∧ FoundThrough closer found es m := by
  induction es generalizing found n with
  | nil =>
    refine ⟨fun h => by simp [materialThrough] at h, ?_⟩
    rintro ⟨m, -, ⟨⟨e, he, -⟩, -, -⟩, -⟩
    simp at he
  | cons e es ih =>
    obtain ⟨l, k⟩ := e
    rw [materialThrough_cons]
    by_cases hm : s.isMaterial k (innerText closer l) = true
    · rw [if_pos hm]
      by_cases hc : closes closer l = true
      · -- the comment ends here, and nowhere else
        rw [if_pos hc]
        constructor
        · intro h
          split at h
          · next hf =>
            simp only [Option.some.injEq] at h
            exact ⟨0, h.symm, endsAt_zero_iff.mpr ⟨hc, hm⟩, foundThrough_zero_iff.mpr hf⟩
          · simp at h
        · rintro ⟨_ | m, rfl, hend, hf⟩
          · rw [if_pos (foundThrough_zero_iff.mp hf)]
          · exact absurd (hc.symm.trans (endsAt_succ_iff.mp hend).1) (by simp)
      · -- it goes on
        rw [if_neg hc, Option.map_eq_some_iff]
        constructor
        · rintro ⟨n, hn, rfl⟩
          obtain ⟨m, rfl, hend, hf⟩ := ih.mp hn
          exact ⟨m + 1, rfl, endsAt_succ_iff.mpr ⟨by simpa using hc, hm, hend⟩,
            foundThrough_succ_iff.mpr hf⟩
        · rintro ⟨_ | m, rfl, hend, hf⟩
          · exact absurd (endsAt_zero_iff.mp hend).1 hc
          · exact ⟨m + 1, ih.mpr ⟨m, rfl, (endsAt_succ_iff.mp hend).2.2,
              foundThrough_succ_iff.mp hf⟩, rfl⟩
    · rw [if_neg hm]
      refine ⟨fun h => by simp at h, ?_⟩
      rintro ⟨m, -, hend, -⟩
      exact absurd (hend.material 0 (Nat.zero_le _) (l, k) rfl) hm

lemma removedBlock?_eq_some_iff {l : Text} {k : LineKind} {es : List Entry} {n : Nat} :
    s.removedBlock? l es = some n ↔ ∃ closer, s.IsHeaderComment closer ((l, k) :: es) 0 n := by
  unfold removedBlock?
  rw [Option.bind_eq_some_iff]
  refine exists_congr fun closer => ?_
  rw [materialThrough_eq_some_iff]
  constructor
  · rintro ⟨hopen, m, rfl, ⟨hend, hfirst, hmat⟩, hf⟩
    obtain ⟨j, hj, hf⟩ := hf.resolve_left (by simp)
    refine ⟨⟨(l, k), rfl, hopen⟩, Nat.succ_pos m, hend, ?_, ?_, ⟨j + 1, by omega, by omega, hf⟩⟩
    · rintro (_ | i) h1 h2 e he
      · omega
      · exact hfirst i (by omega) e he
    · rintro (_ | i) h1 h2 e he
      · omega
      · exact hmat i (by omega) e he
  · rintro ⟨⟨e, he, hopen⟩, hlt, hend, hfirst, hmat, ⟨_ | j, h1, h2, hf⟩⟩
    · omega
    · obtain rfl : (l, k) = e := by simpa using he
      obtain ⟨m, rfl⟩ : ∃ m, n = m + 1 := ⟨n - 1, by omega⟩
      exact ⟨hopen, m, rfl, ⟨hend, fun i hi => hfirst (i + 1) (by omega) (by omega),
        fun i hi => hmat (i + 1) (by omega) (by omega)⟩, Or.inr ⟨j, by omega, hf⟩⟩

lemma removedBlock?_eq_none_iff {l : Text} {k : LineKind} {es : List Entry} :
    s.removedBlock? l es = none ↔
      ∀ closer b, ¬ s.IsHeaderComment closer ((l, k) :: es) 0 b := by
  rw [Option.eq_none_iff_forall_ne_some]
  constructor
  · intro h closer b hb
    exact h b ((s.removedBlock?_eq_some_iff).mpr ⟨closer, hb⟩)
  · intro h b hb
    obtain ⟨closer, hc⟩ := (s.removedBlock?_eq_some_iff (k := k)).mp hb
    exact h closer b hc

lemma isHeaderComment_append {closer : Text} {p es : List Entry} {a b : Nat} :
    s.IsHeaderComment closer (p ++ es) (p.length + a) (p.length + b) ↔
      s.IsHeaderComment closer es a b := by
  have hget : ∀ i, (p ++ es)[p.length + i]? = es[i]? := by
    intro i
    rw [List.getElem?_append_right (by omega)]
    congr 1
    omega
  -- a line behind line `a` of the whole is one behind the lines in front
  have hshift : ∀ j, p.length + a < j → ∃ i, j = p.length + i ∧ a < i :=
    fun j hj => ⟨j - p.length, by omega, by omega⟩
  constructor
  · rintro ⟨hopen, hlt, hend, hfirst, hmat, ⟨j, h1, h2, hf⟩⟩
    obtain ⟨i, rfl, hi⟩ := hshift j h1
    refine ⟨by rwa [hget] at hopen, by omega, by rwa [hget] at hend, fun j h1 h2 => ?_,
      fun j h1 h2 => ?_, ⟨i, hi, by omega, by rwa [hget] at hf⟩⟩
    · have := hfirst (p.length + j) (by omega) (by omega)
      rwa [hget] at this
    · have := hmat (p.length + j) (by omega) (by omega)
      rwa [hget] at this
  · rintro ⟨hopen, hlt, hend, hfirst, hmat, ⟨j, h1, h2, hf⟩⟩
    refine ⟨by rwa [hget], by omega, by rwa [hget], fun j h1 h2 => ?_, fun j h1 h2 => ?_,
      ⟨p.length + j, by omega, by omega, by rwa [hget]⟩⟩
    · obtain ⟨i, rfl, hi⟩ := hshift j h1
      rw [hget]
      exact hfirst i hi (by omega)
    · obtain ⟨i, rfl, hi⟩ := hshift j h1
      rw [hget]
      exact hmat i hi (by omega)

end Letterhead.Settings
