import Letterhead.Proofs.Header.Comment

/-!
Lines that come to stand next to each other keep their sides of a comment just if they fit: each
starts as the one above it ends.
-/

namespace Letterhead.CommentMarks

variable (m : CommentMarks) (start : Nat) (ls : List Text)

/-- Lines of a file, given by their positions, fit one below the other and below a place that is
inside a comment or not: each starts as the one above it ends. Blank lines do not count. -/
def Fits : (inside : Bool) → List Nat → Prop
  | _, [] => True
  | inside, p :: ps =>
    if (ls.getD p []).isBlank then Fits inside ps
    else m.insideAt start ls p = inside ∧ Fits (m.insideAt start ls (p + 1)) ps

variable {m start ls}

lemma fits_cons_of_blank {inside : Bool} {p : Nat} {ps : List Nat}
    (hb : (ls.getD p []).isBlank = true) :
    m.Fits start ls inside (p :: ps) ↔ m.Fits start ls inside ps := by
  rw [Fits, if_pos hb]

lemma fits_cons_of_not_blank {inside : Bool} {p : Nat} {ps : List Nat}
    (hb : (ls.getD p []).isBlank = false) :
    m.Fits start ls inside (p :: ps) ↔
      m.insideAt start ls p = inside ∧ m.Fits start ls (m.insideAt start ls (p + 1)) ps := by
  rw [Fits, if_neg (by rw [hb]; exact Bool.false_ne_true)]

lemma fits_append_of_closed {ps qs : List Nat}
    (hps : ∀ p ∈ ps, m.insideAt start ls p = false ∧ m.insideAt start ls (p + 1) = false)
    (hqs : m.Fits start ls false qs) : m.Fits start ls false (ps ++ qs) := by
  induction ps with
  | nil => exact hqs
  | cons p ps ih =>
    obtain ⟨hp, hps⟩ := List.forall_mem_cons.mp hps
    cases hb : (ls.getD p []).isBlank with
    | true => exact (fits_cons_of_blank hb).mpr (ih hps)
    | false => exact (fits_cons_of_not_blank hb).mpr ⟨hp.1, by rw [hp.2]; exact ih hps⟩

variable (hblank : ∀ inside, ∃ c t, m.next inside = c :: t ∧ c.isBlank = false)
include hblank

lemma fits_range' {a n : Nat} (ha : start ≤ a) (hn : a + n ≤ ls.length) :
    m.Fits start ls (m.insideAt start ls a) (List.range' a n) := by
  induction n generalizing a with
  | zero => trivial
  | succ n ih =>
    have hrest := ih (a := a + 1) (by omega) (by omega)
    rw [List.range'_succ]
    cases hb : (ls.getD a []).isBlank with
    | true =>
      rw [m.insideAt_succ ha (by omega), m.readLine_blank hb (hblank _)] at hrest
      exact (fits_cons_of_blank hb).mpr hrest
    | false => exact (fits_cons_of_not_blank hb).mpr ⟨rfl, hrest⟩

lemma fits_append {inside : Bool} {ps qs : List Nat}
    (hps : ∀ p ∈ ps, start ≤ p ∧ p < ls.length) :
    m.Fits start ls inside (ps ++ qs) ↔ m.Fits start ls inside ps ∧
      m.Fits start ls (m.readLines inside (ps.map (ls.getD · []))) qs := by
  induction ps generalizing inside with
  | nil => simp [Fits]
  | cons p ps ih =>
    obtain ⟨hp, hps⟩ := List.forall_mem_cons.mp hps
    rw [List.cons_append, List.map_cons, readLines_cons]
    cases hb : (ls.getD p []).isBlank with
    | true =>
      rw [fits_cons_of_blank hb, fits_cons_of_blank hb, ih hps, m.readLine_blank hb (hblank _)]
    | false =>
      rw [fits_cons_of_not_blank hb, fits_cons_of_not_blank hb, ih hps, and_assoc]
      refine and_congr_right ?_
      rintro rfl
      rw [m.insideAt_succ hp.1 hp.2]

/-- **Lines keep their sides just if they fit**, where they stand one below the other in another
file, from line `b` on. -/
theorem forall_insideAt_iff_fits {out : List Text} {inside : Bool} {b : Nat} {ps : List Nat}
    (hps : ∀ p ∈ ps, start ≤ p ∧ p < ls.length)
    (hout : ∀ j ≤ ps.length,
      m.insideAt start out (b + j) = m.readLines inside ((ps.map (ls.getD · [])).take j)) :
    (∀ x ∈ ps.zipIdx b, (ls.getD x.1 []).isBlank = false →
      m.insideAt start out x.2 = m.insideAt start ls x.1) ↔ m.Fits start ls inside ps := by
  induction ps generalizing inside b with
  | nil => simp [Fits]
  | cons p ps ih =>
    obtain ⟨hp, hps⟩ := List.forall_mem_cons.mp hps
    -- behind the first line, the others stand one line further down
    have hrest : ∀ j ≤ ps.length, m.insideAt start out (b + 1 + j) =
        m.readLines (m.readLine inside (ls.getD p [])) ((ps.map (ls.getD · [])).take j) := by
      intro j hj
      have := hout (j + 1) (by rw [List.length_cons]; omega)
      rw [List.map_cons, List.take_succ_cons, readLines_cons] at this
      rw [← this]
      congr 1
      omega
    have h0 : m.insideAt start out b = inside := hout 0 (Nat.zero_le _)
    rw [List.zipIdx_cons, List.forall_mem_cons]
    cases hb : (ls.getD p []).isBlank with
    | true =>
      rw [m.readLine_blank hb (hblank _)] at hrest
      rw [fits_cons_of_blank hb, ih hps hrest]
      exact and_iff_right fun h => absurd h (by simp)
    | false =>
      have hfirst : (false = false → m.insideAt start out b = m.insideAt start ls p) ↔
          m.insideAt start ls p = inside := by
        rw [h0]
        exact ⟨fun h => (h rfl).symm, fun h _ => h.symm⟩
      rw [fits_cons_of_not_blank hb]
      refine (and_congr hfirst Iff.rfl).trans (and_congr_right ?_)
      rintro rfl
      rw [m.insideAt_succ hp.1 hp.2]
      exact ih hps hrest

lemma forall_insideAt_append_iff {pre : List Text} {ps : List Nat} {b : Nat}
    (hb : b = pre.length) (hs : start ≤ b) (hps : ∀ p ∈ ps, start ≤ p ∧ p < ls.length)
    (rest : List Text) :
    (∀ x ∈ ps.zipIdx b, (ls.getD x.1 []).isBlank = false →
      m.insideAt start (pre ++ ps.map (ls.getD · []) ++ rest) x.2 = m.insideAt start ls x.1) ↔
      m.Fits start ls (m.readLines false (pre.drop start)) ps := by
  subst hb
  refine forall_insideAt_iff_fits hblank hps fun j hj => ?_
  exact m.insideAt_append hs (by rwa [List.length_map])

end Letterhead.CommentMarks
