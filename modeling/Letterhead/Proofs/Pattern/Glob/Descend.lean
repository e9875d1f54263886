import Mathlib.Data.List.Infix
import Letterhead.Proofs.Pattern.Glob.Piece

/-!
The pieces of a pattern that match a folder match what lies below it, with a span behind them.

What a piece takes of the folder it takes of the longer path too, and the span takes the rest. One
thing stands in the way: a last part of the path that is `.` or `..` with a line feed behind it is
not entered by a span.
-/

namespace Letterhead.Pattern.Glob

variable {k k' : Rest} {cs below : List Char} {ps : List Piece} {p : Piece} {first : Bool}

/-! ### Segments that are points -/

lemma atSegmentEnd_of_append (h : atSegmentEnd (cs ++ '/' :: below) = true) :
    atSegmentEnd cs = true := by
  rcases cs with _ | ⟨c, cs⟩
  · rfl
  · have hslash : c = '/' := by simpa [atSegmentEnd] using h
    rw [hslash]
    exact Bool.or_true _

lemma isDots_iff : isDots cs = true ↔
    ∃ rest, (cs = '.' :: rest ∨ cs = '.' :: '.' :: rest) ∧ atSegmentEnd rest = true := by
  have hpoint (rest : List Char) : atSegmentEnd ('.' :: rest) = false := by
    simp [atSegmentEnd]
  unfold isDots
  split
  · next rest =>
    refine ⟨fun h => ⟨rest, .inr rfl, h⟩, ?_⟩
    rintro ⟨rest', heq | heq, h⟩
    · obtain ⟨-, rfl⟩ := List.cons.inj heq
      rw [hpoint] at h
      cases h
    · obtain ⟨-, heq⟩ := List.cons.inj heq
      exact (List.cons.inj heq).2 ▸ h
  · next rest hone =>
    refine ⟨fun h => ⟨rest, .inl rfl, h⟩, ?_⟩
    rintro ⟨rest', heq | heq, h⟩
    · exact (List.cons.inj heq).2 ▸ h
    · exact absurd (List.cons.inj heq).2 (hone rest')
  · next hone htwo =>
    refine ⟨fun h => Bool.noConfusion h, ?_⟩
    rintro ⟨rest', heq | heq, -⟩
    · exact absurd heq (htwo rest')
    · exact absurd heq (htwo _)

lemma isDots_append (h : isDots cs = false) : isDots (cs ++ '/' :: below) = false := by
  refine Bool.eq_false_iff.mpr fun hlong => Bool.eq_false_iff.mp h ?_
  obtain ⟨rest, heq, hend⟩ := isDots_iff.mp hlong
  rw [isDots_iff]
  rcases cs with _ | ⟨c, cs⟩
  · rcases heq with heq | heq <;> simp at heq
  rw [List.cons_append, List.cons.injEq, List.cons.injEq] at heq
  rcases heq with ⟨rfl, rfl⟩ | ⟨rfl, heq⟩
  · exact ⟨cs, .inl rfl, atSegmentEnd_of_append hend⟩
  rcases cs with _ | ⟨d, cs⟩
  · simp at heq
  · rw [List.cons_append, List.cons.injEq] at heq
    obtain ⟨rfl, rfl⟩ := heq
    exact ⟨cs, .inr rfl, atSegmentEnd_of_append hend⟩

lemma entersDots_of_head?_ne (h : cs.head? ≠ some '/') :
    entersDots first cs = (first && isDots cs) := by
  unfold entersDots
  split
  · exact absurd rfl h
  · rfl

lemma entersDots_append (hne : cs ≠ []) (h : entersDots first cs = false) :
    entersDots first (cs ++ '/' :: below) = false := by
  obtain ⟨c, cs, rfl⟩ := List.exists_cons_of_ne_nil hne
  by_cases hslash : c = '/'
  · rw [hslash] at h ⊢
    exact isDots_append h
  · have hhead : ((c :: cs) ++ '/' :: below).head? ≠ some '/' := by simpa using hslash
    rw [entersDots_of_head?_ne (by simpa using hslash), Bool.and_eq_false_iff] at h
    rw [entersDots_of_head?_ne hhead, Bool.and_eq_false_iff]
    exact h.imp_right isDots_append

/-! ### Pieces within a longer path -/

/-- What the one takes in front of an end of the path, the other takes in front of a longer one. -/
def Extends (below : List Char) (k k' : Rest) (cs : List Char) : Prop :=
  ∀ first cs', cs' <:+ cs → k first cs' = true → k' first (cs' ++ '/' :: below) = true

lemma Extends.of_suffix {cs' : List Char} (h : Extends below k k' cs) (hcs' : cs' <:+ cs) :
    Extends below k k' cs' := fun first _ hsuffix => h first _ (hsuffix.trans hcs')

lemma withinSegment_of (h : k first cs = true) : withinSegment k first cs = true := by
  rcases cs with _ | ⟨c, cs⟩
  · exact h
  · rw [withinSegment, h, Bool.true_or]

lemma withinSegment_append (h : Extends below k k' cs) (hk : withinSegment k first cs = true) :
    withinSegment k' first (cs ++ '/' :: below) = true := by
  induction cs generalizing first with
  | nil => exact withinSegment_of (h first [] List.suffix_rfl hk)
  | cons c cs ih =>
    rw [withinSegment, Bool.or_eq_true, Bool.and_eq_true] at hk
    rcases hk with hk | ⟨hslash, hk⟩
    · exact withinSegment_of (h first _ List.suffix_rfl hk)
    · rw [List.cons_append, withinSegment, hslash, ih (h.of_suffix (List.suffix_cons _ _)) hk,
        Bool.and_self, Bool.or_true]

lemma someSlashes_of_head?_ne (h : cs.head? ≠ some '/') : someSlashes k first cs = false := by
  unfold someSlashes
  split
  · exact absurd rfl h
  · rfl

lemma someSlashes_append (h : Extends below k k' cs) (hk : someSlashes k first cs = true) :
    someSlashes k' first (cs ++ '/' :: below) = true := by
  induction cs generalizing first with
  | nil => cases hk
  | cons c cs ih =>
    by_cases hslash : c = '/'
    · rw [hslash] at hk ⊢
      rw [someSlashes, Bool.or_eq_true] at hk
      rw [List.cons_append, someSlashes, Bool.or_eq_true]
      exact hk.imp (h false cs (List.suffix_cons _ _)) (ih (h.of_suffix (List.suffix_cons _ _)))
    · rw [someSlashes_of_head?_ne (by simpa using hslash)] at hk
      cases hk

lemma segmentEdge_append (h : Extends below k k' cs) (hfails : ∀ first, k first [] = false)
    (hk : segmentEdge k first cs = true) : segmentEdge k' first (cs ++ '/' :: below) = true := by
  rw [segmentEdge, Bool.or_eq_true, Bool.and_eq_true, Bool.or_eq_true] at hk ⊢
  rcases hk with ⟨hfirst | hend, hk⟩ | hk
  · exact .inl ⟨.inl hfirst, h first cs List.suffix_rfl hk⟩
  · rw [List.isEmpty_iff.mp hend, hfails first] at hk
    cases hk
  · exact .inr (someSlashes_append h hk)

lemma acrossSegments_append (h : Extends below k k' cs) (hfails : ∀ first, k first [] = false)
    (hk : acrossSegments k first cs = true) :
    acrossSegments k' first (cs ++ '/' :: below) = true := by
  induction cs generalizing first with
  | nil =>
    rw [List.nil_append, acrossSegments, Bool.or_eq_true]
    exact .inl (segmentEdge_append h hfails hk)
  | cons c cs ih =>
    rw [acrossSegments, Bool.or_eq_true, Bool.and_eq_true] at hk
    rw [List.cons_append, acrossSegments, Bool.or_eq_true, Bool.and_eq_true]
    refine hk.imp (segmentEdge_append h hfails) fun ⟨henters, hk⟩ => ⟨?_, ?_⟩
    · rw [Bool.not_eq_true'] at henters ⊢
      exact entersDots_append (List.cons_ne_nil _ _) henters
    · exact ih (h.of_suffix (List.suffix_cons _ _)) hk

lemma run_segments_append {inner : Bool} (h : acrossSegments k first cs = true →
      acrossSegments k' first (cs ++ '/' :: below) = true)
    (hk : (Piece.segments inner).run k first cs = true) :
    (Piece.segments inner).run k' first (cs ++ '/' :: below) = true := by
  obtain ⟨hinner, hk⟩ := Bool.and_eq_true_iff.mp hk
  refine Bool.and_eq_true_iff.mpr ⟨?_, h hk⟩
  rcases cs with _ | ⟨c, cs⟩
  · exact congrArg (!·) (Bool.and_false inner)
  · exact hinner

lemma run_append (h : Extends below k k' cs)
    (hfails : (∃ inner, p = .segments inner) → ∀ first, k first [] = false)
    (hk : p.run k first cs = true) : p.run k' first (cs ++ '/' :: below) = true := by
  have hdots {opens : Bool} (hopens : (!(opens && isDots cs)) = true) :
      (!(opens && isDots (cs ++ '/' :: below))) = true := by
    rw [Bool.not_eq_true', Bool.and_eq_false_iff] at hopens ⊢
    exact hopens.imp_right isDots_append
  cases p with
  | char c =>
    rcases cs with _ | ⟨d, cs⟩
    · cases hk
    obtain ⟨hsame, hk⟩ := Bool.and_eq_true_iff.mp hk
    exact Bool.and_eq_true_iff.mpr ⟨hsame, h false cs (List.suffix_cons _ _) hk⟩
  | set opens s =>
    obtain ⟨hopens, hk⟩ := Bool.and_eq_true_iff.mp hk
    refine Bool.and_eq_true_iff.mpr ⟨hdots hopens, ?_⟩
    rcases cs with _ | ⟨c, cs⟩
    · cases hk
    obtain ⟨hmem, hk⟩ := Bool.and_eq_true_iff.mp hk
    exact Bool.and_eq_true_iff.mpr ⟨hmem, h false cs (List.suffix_cons _ _) hk⟩
  | star opens =>
    obtain ⟨hopens, hk⟩ := Bool.and_eq_true_iff.mp hk
    refine Bool.and_eq_true_iff.mpr ⟨?_, withinSegment_append h hk⟩
    rw [Bool.not_eq_true', Bool.and_eq_false_iff, Bool.or_eq_false_iff] at hopens ⊢
    refine hopens.imp_right fun ⟨hdots, hhead⟩ => ⟨isDots_append hdots, ?_⟩
    -- a star that opens a segment takes something of it
    rcases cs with _ | ⟨c, cs⟩
    · cases hhead
    · exact hhead
  | slashes => exact someSlashes_append h hk
  | segments inner => exact run_segments_append (acrossSegments_append h (hfails ⟨inner, rfl⟩)) hk

/-! ### The last span -/

/-- No segment behind a slash is a point. -/
def NoDots (cs : List Char) : Prop := ∀ rest, '/' :: rest <:+ cs → isDots rest = false

lemma someSlashes_last (h : someSlashes (runAll []) first cs = true) : ∀ c ∈ cs, c = '/' := by
  induction cs generalizing first with
  | nil => simp
  | cons c cs ih =>
    by_cases hslash : c = '/'
    · rw [hslash, someSlashes, Bool.or_eq_true] at h
      rw [List.forall_mem_cons]
      refine ⟨hslash, h.elim (fun hall => ?_) ih⟩
      simpa [runAll] using hall
    · rw [someSlashes_of_head?_ne (by simpa using hslash)] at h
      cases h

lemma segmentEdge_last (h : segmentEdge (runAll []) first cs = true) : ∀ c ∈ cs, c = '/' := by
  rw [segmentEdge, Bool.or_eq_true, Bool.and_eq_true] at h
  rcases h with ⟨-, hall⟩ | h
  · simpa [runAll] using hall
  · exact someSlashes_last h

lemma acrossSegments_last (h : NoDots cs) : acrossSegments (runAll []) false cs = true := by
  induction cs with
  | nil => rfl
  | cons c cs ih =>
    have hcs : NoDots cs := fun rest hsuffix => h rest (hsuffix.trans (List.suffix_cons _ _))
    rw [acrossSegments, ih hcs, Bool.and_true, Bool.or_eq_true]
    refine .inr ?_
    by_cases hslash : c = '/'
    · rw [hslash]
      exact congrArg (!·) (h cs (hslash ▸ List.suffix_rfl))
    · rw [entersDots_of_head?_ne (by simpa using hslash)]
      rfl

lemma acrossSegments_below (h : NoDots ('/' :: below)) :
    acrossSegments (runAll []) first ('/' :: below) = true := by
  have hbelow : NoDots below := fun rest hsuffix => h rest (hsuffix.trans (List.suffix_cons _ _))
  rw [acrossSegments, acrossSegments_last hbelow, Bool.and_true, Bool.or_eq_true]
  exact .inr (congrArg (!·) (h below List.suffix_rfl))

lemma not_all_slashes (hslash : ¬ ['/'] <:+ cs) (hne : cs ≠ []) : ¬ ∀ c ∈ cs, c = '/' := by
  intro hall
  obtain ⟨front, c, rfl⟩ := List.eq_nil_or_concat' cs |>.resolve_left hne
  rw [hall c (by simp)] at hslash
  exact hslash (List.suffix_append _ _)

lemma acrossSegments_last_append (hslash : ¬ ['/'] <:+ cs) (hbelow : NoDots ('/' :: below))
    (h : acrossSegments (runAll []) first cs = true) :
    acrossSegments (runAll []) first (cs ++ '/' :: below) = true := by
  induction cs generalizing first with
  | nil => exact acrossSegments_below hbelow
  | cons c cs ih =>
    rw [acrossSegments, Bool.or_eq_true, Bool.and_eq_true] at h
    rw [List.cons_append, acrossSegments, Bool.or_eq_true, Bool.and_eq_true]
    rcases h with hedge | ⟨henters, h⟩
    · exact absurd (segmentEdge_last hedge) (not_all_slashes hslash (List.cons_ne_nil _ _))
    · refine .inr ⟨?_, ih (fun hsuffix => hslash (hsuffix.trans (List.suffix_cons _ _))) h⟩
      rw [Bool.not_eq_true'] at henters ⊢
      exact entersDots_append (List.cons_ne_nil _ _) henters

/-! ### All the pieces -/

lemma covered_cons (h : ps ≠ [] ∨ p ≠ .slashes ∧ ∀ inner, p ≠ .segments inner) :
    covered (p :: ps) = p :: covered ps := by
  rcases ps with _ | ⟨q, ps⟩
  · obtain ⟨hslashes, hspan⟩ := h.resolve_left (absurd rfl)
    cases p with
    | slashes => exact absurd rfl hslashes
    | segments inner => exact absurd rfl (hspan inner)
    | _ => rfl
  · cases p <;> rfl

lemma runAll_nil_of_follows {inner : Bool} {q : Piece} (h : Follows (.segments inner) q) :
    runAll (q :: ps) first [] = false := by
  cases q with
  | char c => rfl
  | set opens s => exact Bool.and_false _
  | star opens =>
    cases opens
    · exact absurd rfl (h.2 inner rfl)
    · rfl
  | slashes => rfl
  | segments inner =>
    cases inner
    · exact absurd rfl h.1
    · rfl

/-- **Pieces that match a path match what lies below it** with a span behind them. -/
lemma runAll_covered_append (hchain : ps.IsChain Follows) (hslash : ¬ ['/'] <:+ cs)
    (hbelow : NoDots ('/' :: below)) (h : runAll ps first cs = true) :
    runAll (covered ps) first (cs ++ '/' :: below) = true := by
  induction ps generalizing first cs with
  | nil =>
    by_cases hend : cs = []
    · rw [hend]
      exact acrossSegments_below hbelow
    · exact absurd (by simpa [runAll] using h) (not_all_slashes hslash hend)
  | cons p ps ih =>
    by_cases hrest : ps ≠ [] ∨ p ≠ .slashes ∧ ∀ inner, p ≠ .segments inner
    · have hextends : Extends below (runAll ps) (runAll (covered ps)) cs := by
        intro first cs' hsuffix hrun
        exact ih hchain.tail (fun hends => hslash (hends.trans hsuffix)) hrun
      rw [covered_cons hrest]
      refine run_append hextends ?_ h
      rintro ⟨inner, rfl⟩ first
      obtain ⟨q, ps, rfl⟩ := List.exists_cons_of_ne_nil (hrest.resolve_right fun h => h.2 inner rfl)
      exact runAll_nil_of_follows hchain.rel
    -- the last piece is part of the span that is added
    · push Not at hrest
      obtain ⟨rfl, hlast⟩ := hrest
      by_cases hp : p = .slashes
      · rw [hp] at h
        have hne : cs ≠ [] := by rintro rfl; cases h
        exact absurd (someSlashes_last h) (not_all_slashes hslash hne)
      · obtain ⟨inner, rfl⟩ := hlast hp
        exact run_segments_append (acrossSegments_last_append hslash hbelow) h

/-! ### Paths that end in points -/

/-- The path ends in a part that is a point or two, a line feed behind them. -/
def EndsInDots (path : List Char) : Prop :=
  ['/', '.', '\n'] <:+ '/' :: path ∨ ['/', '.', '.', '\n'] <:+ '/' :: path

instance (path : List Char) : Decidable (EndsInDots path) :=
  inferInstanceAs (Decidable (_ ∨ _))

lemma exists_dots {path : List Char} (h : EndsInDots path) :
    ∃ dots, '/' ∉ dots ∧ isDots dots = true ∧ '/' :: dots <:+ '/' :: path := by
  rcases h with h | h
  · exact ⟨['.', '\n'], by decide, rfl, h⟩
  · exact ⟨['.', '.', '\n'], by decide, rfl, h⟩

section Dots

variable {dots path : List Char} (hslash : '/' ∉ dots) (hdots : isDots dots = true)

include hslash hdots

lemma segmentEdge_dots (h : '/' :: dots <:+ cs) : segmentEdge (runAll []) first cs = false := by
  refine Bool.eq_false_iff.mpr fun hedge => ?_
  obtain ⟨c, rest, rfl⟩ : ∃ c rest, dots = c :: rest :=
    List.exists_cons_of_ne_nil (by rintro rfl; cases hdots)
  have hc : c = '/' := segmentEdge_last hedge c (h.subset (by simp))
  exact hslash (hc ▸ List.mem_cons_self)

lemma acrossSegments_dots (h : '/' :: dots <:+ cs) :
    acrossSegments (runAll []) first cs = false := by
  induction cs generalizing first with
  | nil => simp at h
  | cons c cs ih =>
    rw [acrossSegments, segmentEdge_dots hslash hdots h, Bool.false_or, Bool.and_eq_false_iff]
    rcases List.suffix_cons_iff.mp h with heq | h
    · obtain ⟨rfl, rfl⟩ := List.cons.inj heq
      exact .inl (congrArg (!·) hdots)
    · exact .inr (ih h)

end Dots

lemma exists_of_withinSegment (h : withinSegment k first cs = true) :
    ∃ first' cs', cs' <:+ cs ∧ k first' cs' = true := by
  induction cs generalizing first with
  | nil => exact ⟨first, [], List.suffix_rfl, h⟩
  | cons c cs ih =>
    rw [withinSegment, Bool.or_eq_true, Bool.and_eq_true] at h
    rcases h with h | ⟨-, h⟩
    · exact ⟨first, _, List.suffix_rfl, h⟩
    · obtain ⟨first', cs', hsuffix, hk⟩ := ih h
      exact ⟨first', cs', hsuffix.trans (List.suffix_cons _ _), hk⟩

lemma exists_of_someSlashes (h : someSlashes k first cs = true) :
    ∃ first' cs', cs' <:+ cs ∧ k first' cs' = true := by
  induction cs generalizing first with
  | nil => cases h
  | cons c cs ih =>
    by_cases hslash : c = '/'
    · rw [hslash, someSlashes, Bool.or_eq_true] at h
      rcases h with h | h
      · exact ⟨false, cs, List.suffix_cons _ _, h⟩
      · obtain ⟨first', cs', hsuffix, hk⟩ := ih h
        exact ⟨first', cs', hsuffix.trans (List.suffix_cons _ _), hk⟩
    · rw [someSlashes_of_head?_ne (by simpa using hslash)] at h
      cases h

lemma exists_of_acrossSegments (h : acrossSegments k first cs = true) :
    ∃ first' cs', cs' <:+ cs ∧ k first' cs' = true := by
  have hedge {first : Bool} {cs : List Char} (h : segmentEdge k first cs = true) :
      ∃ first' cs', cs' <:+ cs ∧ k first' cs' = true := by
    rw [segmentEdge, Bool.or_eq_true, Bool.and_eq_true] at h
    rcases h with ⟨-, h⟩ | h
    · exact ⟨first, cs, List.suffix_rfl, h⟩
    · exact exists_of_someSlashes h
  induction cs generalizing first with
  | nil => exact hedge h
  | cons c cs ih =>
    rw [acrossSegments, Bool.or_eq_true, Bool.and_eq_true] at h
    rcases h with h | ⟨-, h⟩
    · exact hedge h
    · obtain ⟨first', cs', hsuffix, hk⟩ := ih h
      exact ⟨first', cs', hsuffix.trans (List.suffix_cons _ _), hk⟩

lemma exists_of_run (h : p.run k first cs = true) :
    ∃ first' cs', cs' <:+ cs ∧ k first' cs' = true := by
  cases p with
  | char c =>
    rcases cs with _ | ⟨d, cs⟩
    · cases h
    · exact ⟨false, cs, List.suffix_cons _ _, (Bool.and_eq_true_iff.mp h).2⟩
  | set opens s =>
    obtain ⟨-, h⟩ := Bool.and_eq_true_iff.mp h
    rcases cs with _ | ⟨c, cs⟩
    · cases h
    · exact ⟨false, cs, List.suffix_cons _ _, (Bool.and_eq_true_iff.mp h).2⟩
  | star opens => exact exists_of_withinSegment (Bool.and_eq_true_iff.mp h).2
  | slashes => exact exists_of_someSlashes h
  | segments inner => exact exists_of_acrossSegments (Bool.and_eq_true_iff.mp h).2

lemma runAll_span_dots {dots path : List Char} (hslash : '/' ∉ dots) (hdots : isDots dots = true)
    (hpath : '/' :: dots <:+ path) (front : List Piece) (hcs : cs <:+ path) :
    runAll (front ++ [.segments true]) first cs = false := by
  induction front generalizing first cs with
  | nil =>
    refine Bool.and_eq_false_iff.mpr ?_
    by_cases hhead : cs.head? = some '/'
    · refine .inr (acrossSegments_dots hslash hdots ?_)
      rcases List.suffix_or_suffix_of_suffix hcs hpath with hshort | hlong
      · obtain ⟨rest, rfl⟩ := List.head?_eq_some_iff.mp hhead
        rcases List.suffix_cons_iff.mp hshort with heq | hrest
        · exact heq ▸ List.suffix_rfl
        · exact absurd (hrest.subset List.mem_cons_self) hslash
      · exact hlong
    · exact .inl (by simpa using hhead)
  | cons p front ih =>
    refine Bool.eq_false_iff.mpr fun h => ?_
    obtain ⟨first', cs', hsuffix, hrun⟩ := exists_of_run h
    exact Bool.eq_false_iff.mp (ih (hsuffix.trans hcs)) hrun

/-- **Pieces that end in a span do not match a path that ends in points.** -/
lemma runAll_dots {path : List Char} (hspanned : IsSpanned ps) (hchain : ps.IsChain Follows)
    (hends : EndsInDots below) (hpath : '/' :: below <:+ path) : runAll ps first path = false := by
  obtain ⟨dots, hslash, hdots, hsuffix⟩ := exists_dots hends
  obtain ⟨front, inner, rfl⟩ := hspanned
  rcases List.eq_nil_or_concat' front with rfl | ⟨front, q, rfl⟩
  · exact Bool.and_eq_false_iff.mpr
      (.inr (acrossSegments_dots hslash hdots (hsuffix.trans hpath)))
  · -- only as the first piece a span does not look for a slash
    rw [List.append_assoc] at hchain
    have hinner : inner = true := by
      have hfollows := (List.isChain_append_cons_cons.mp hchain).2.1
      cases inner
      · exact absurd rfl hfollows.1
      · rfl
    rw [hinner]
    exact runAll_span_dots hslash hdots (hsuffix.trans hpath) _ List.suffix_rfl

end Letterhead.Pattern.Glob
