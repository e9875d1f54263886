import Mathlib.Data.List.Chain
import Mathlib.Data.List.TakeWhile
import Letterhead.Pattern.Glob
import Letterhead.Proofs.Pattern.Glob.Bracket

/-!
The pieces of a pattern, and those of the pattern with `/**` behind it.

A pattern is read piece by piece. With slashes and stars behind it, it is read the same up to its
end, where slashes that stand there already and those of the tail are one. So `/**` adds a span of
segments to the pieces, unless the pattern ends in one.
-/

namespace Letterhead.Pattern.Glob

/-- How far the pieces of a pattern have been read. -/
structure Reading where
  opens : Bool
  afterSegments : Bool
  /-- The pieces so far, last one first. -/
  found : List Piece
  rest : List Char

namespace Reading

/-! ### One piece -/

/-- The pieces with a span behind them, which looks for the slash itself. -/
def spanned : List Piece → List Piece
  | .slashes :: before => .segments true :: before
  | before => .segments (!before.isEmpty) :: before

/-- The reading behind a span; a second one in a row is dropped. -/
def span (after : Bool) (found : List Piece) (rest : List Char) : Reading :=
  if after then ⟨true, true, found, rest⟩
  else ⟨true, true, spanned found, rest.dropWhile (· == '/')⟩

/-- One piece more. -/
inductive Next : Reading → Reading → Prop
  | inner {after found rest} :
    Next ⟨false, after, found, '*' :: rest⟩ ⟨false, false, .star false :: found, rest⟩
  | spanEnd {after found} : Next ⟨true, after, found, ['*', '*']⟩ (span after found [])
  | span {after found rest} :
    Next ⟨true, after, found, '*' :: '*' :: '/' :: rest⟩ (span after found rest)
  | star {after found rest} (hend : rest ≠ ['*']) (hslash : ¬ ['*', '/'] <+: rest) :
    Next ⟨true, after, found, '*' :: rest⟩
      ⟨false, false, .star true :: found, rest.dropWhile (· == '*')⟩
  | any {opens after found rest} :
    Next ⟨opens, after, found, '?' :: rest⟩ ⟨false, false, .set opens .full :: found, rest⟩
  | slash {opens after found rest} :
    Next ⟨opens, after, found, '/' :: rest⟩
      ⟨true, false, .slashes :: found, rest.dropWhile (· == '/')⟩
  | set {opens after found rest s left} (hset : BracketPart.readSet rest = some (s, left)) :
    Next ⟨opens, after, found, '[' :: rest⟩ ⟨false, false, .set opens s :: found, left⟩
  | char {opens after found rest c} (hstar : c ≠ '*') (hany : c ≠ '?') (hslash : c ≠ '/')
      (hset : c = '[' → BracketPart.readSet rest = none) :
    Next ⟨opens, after, found, c :: rest⟩ ⟨false, false, .char c :: found, rest⟩

variable {r r' : Reading} {opens after : Bool} {found : List Piece} {rest : List Char} {c : Char}
  {fuel : Nat}

/-- The pieces of the whole pattern. -/
def run (r : Reading) (fuel : Nat) : List Piece :=
  readPieces r.opens r.afterSegments r.found fuel r.rest

lemma run_spanEnd :
    run ⟨true, after, found, ['*', '*']⟩ (fuel + 1) = (span after found []).run fuel := by
  cases after
  · rcases found with _ | ⟨p, found⟩
    · rfl
    · cases p <;> rfl
  · rfl

lemma run_span : run ⟨true, after, found, '*' :: '*' :: '/' :: rest⟩ (fuel + 1) =
    (span after found rest).run fuel := by
  cases after
  · rcases found with _ | ⟨p, found⟩
    · rfl
    · cases p <;> rfl
  · rfl

lemma run_star (hend : rest ≠ ['*']) (hslash : ¬ ['*', '/'] <+: rest) :
    run ⟨true, after, found, '*' :: rest⟩ (fuel + 1) =
      run ⟨false, false, .star true :: found, rest.dropWhile (· == '*')⟩ fuel := by
  rw [run, readPieces.eq_def]
  dsimp only
  split
  · split
    · next hopens => cases hopens
    · exact absurd rfl hend
    · exact absurd (List.prefix_append ['*', '/'] _) hslash
    · rfl
  · next hc => exact absurd hc (by decide)
  · next hc => exact absurd hc (by decide)
  · next hc => exact absurd hc (by decide)
  · next hc _ _ _ => exact absurd rfl hc

lemma run_set {s : CharSet} {left : List Char} (hset : BracketPart.readSet rest = some (s, left)) :
    run ⟨opens, after, found, '[' :: rest⟩ (fuel + 1) =
      run ⟨false, false, .set opens s :: found, left⟩ fuel := by
  rw [run, readPieces.eq_def]
  dsimp only
  rw [hset]
  rfl

lemma run_char (hstar : c ≠ '*') (hany : c ≠ '?') (hslash : c ≠ '/')
    (hset : c = '[' → BracketPart.readSet rest = none) :
    run ⟨opens, after, found, c :: rest⟩ (fuel + 1) =
      run ⟨false, false, .char c :: found, rest⟩ fuel := by
  rw [run, readPieces.eq_def]
  dsimp only
  split
  · exact absurd rfl hstar
  · exact absurd rfl hany
  · exact absurd rfl hslash
  · rw [hset rfl]
    rfl
  · rfl

lemma run_of_next (h : Next r r') : r.run (fuel + 1) = r'.run fuel := by
  cases h with
  | inner => rfl
  | spanEnd => exact run_spanEnd
  | span => exact run_span
  | star hend hslash => exact run_star hend hslash
  | any => rfl
  | slash => rfl
  | set hset => exact run_set hset
  | char hstar hany hslash hset => exact run_char hstar hany hslash hset

lemma exists_next (h : r.rest ≠ []) : ∃ r', Next r r' := by
  obtain ⟨opens, after, found, _ | ⟨c, rest⟩⟩ := r
  · exact absurd rfl h
  by_cases hstar : c = '*'
  · rw [hstar]
    cases opens
    · exact ⟨_, .inner⟩
    by_cases hend : rest = ['*']
    · rw [hend]
      exact ⟨_, .spanEnd⟩
    by_cases hslash : ['*', '/'] <+: rest
    · obtain ⟨rest, rfl⟩ := hslash
      exact ⟨_, .span⟩
    · exact ⟨_, .star hend hslash⟩
  by_cases hany : c = '?'
  · rw [hany]
    exact ⟨_, .any⟩
  by_cases hslash : c = '/'
  · rw [hslash]
    exact ⟨_, .slash⟩
  by_cases hset : c = '[' ∧ (BracketPart.readSet rest).isSome
  · obtain ⟨rfl, hset⟩ := hset
    obtain ⟨⟨s, left⟩, hset⟩ := Option.isSome_iff_exists.mp hset
    exact ⟨_, .set hset⟩
  · exact ⟨_, .char hstar hany hslash fun hopen => by simpa [hopen] using hset⟩

lemma suffix_span (after : Bool) (found : List Piece) (rest : List Char) :
    (span after found rest).rest <:+ rest := by
  cases after
  · exact List.dropWhile_suffix _
  · exact List.suffix_rfl

lemma suffix_of_next (h : Next r r') : r'.rest <:+ r.rest.tail := by
  cases h with
  | inner => exact List.suffix_rfl
  | spanEnd => exact (suffix_span _ _ _).trans List.nil_suffix
  | span => exact (suffix_span _ _ _).trans (List.suffix_append ['*', '/'] _)
  | star => exact List.dropWhile_suffix _
  | any => exact List.suffix_rfl
  | slash => exact List.dropWhile_suffix _
  | set hset => exact BracketPart.leavesEnd_readSet _ _ _ hset
  | char => exact List.suffix_rfl

lemma ne_nil_of_next (h : Next r r') : r.rest ≠ [] := by
  cases h <;> exact List.cons_ne_nil _ _

lemma length_lt_of_next (h : Next r r') : r'.rest.length < r.rest.length := by
  have hpos := List.length_pos_iff.mpr (ne_nil_of_next h)
  have hle := (suffix_of_next h).length_le
  rw [List.length_tail] at hle
  omega

/-! ### The whole pattern -/

/-- The pieces of the whole pattern. -/
def pieces (r : Reading) : List Piece := r.run (r.rest.length + 1)

lemma run_eq_pieces (h : r.rest.length < fuel) : r.run fuel = r.pieces := by
  induction fuel using Nat.strong_induction_on generalizing r with
  | _ fuel ih =>
    obtain ⟨fuel, rfl⟩ := Nat.exists_eq_succ_of_ne_zero (by omega : fuel ≠ 0)
    by_cases hrest : r.rest = []
    · obtain ⟨opens, after, found, rest⟩ := r
      obtain rfl : rest = [] := hrest
      rfl
    · obtain ⟨r', hnext⟩ := exists_next hrest
      have hless := length_lt_of_next hnext
      rw [pieces, Nat.succ_eq_add_one, run_of_next hnext, run_of_next hnext,
        ih fuel (by omega) (by omega), ih r.rest.length (by omega) hless]

lemma pieces_of_next (h : Next r r') : r.pieces = r'.pieces := by
  rw [pieces, run_of_next h, run_eq_pieces (length_lt_of_next h)]

lemma exists_end {P : Reading → Prop} (hnext : ∀ r r', Next r r' → P r → P r') (r : Reading)
    (h : P r) : ∃ r', P r' ∧ r'.rest = [] ∧ r.pieces = r'.found.reverse := by
  by_cases hrest : r.rest = []
  · refine ⟨r, h, hrest, ?_⟩
    obtain ⟨opens, after, found, rest⟩ := r
    obtain rfl : rest = [] := hrest
    rfl
  · obtain ⟨r', hr'⟩ := exists_next hrest
    have hless := length_lt_of_next hr'
    obtain ⟨last, hlast, hend, hpieces⟩ := exists_end hnext r' (hnext r r' hr' h)
    exact ⟨last, hlast, hend, (pieces_of_next hr').trans hpieces⟩
termination_by r.rest.length

/-! ### A tail behind the pattern -/

/-- The pieces so far end in a span. -/
def EndsInSpan (found : List Piece) : Prop := ∃ inner before, found = .segments inner :: before

/-- Only behind a span is a second one dropped. -/
def Sound (r : Reading) : Prop := r.afterSegments = true → EndsInSpan r.found

lemma endsInSpan_spanned (found : List Piece) : EndsInSpan (spanned found) := by
  unfold spanned
  split <;> exact ⟨_, _, rfl⟩

lemma sound_span (h : after = true → EndsInSpan found) (rest : List Char) :
    (span after found rest).Sound := by
  intro _
  cases after
  · exact endsInSpan_spanned found
  · exact h rfl

lemma sound_of_next (h : Next r r') (hr : r.Sound) : r'.Sound := by
  cases h with
  | spanEnd => exact sound_span hr _
  | span => exact sound_span hr _
  | _ => exact fun h => Bool.noConfusion h

/-- So many slashes and one more, and what stands behind them. -/
def slashed (n : Nat) (cs : List Char) : List Char := List.replicate (n + 1) '/' ++ cs

/-- A second pattern is read along with the first one; it has slashes and more behind it. At the end
of the first one, slashes may have gone into a piece that is there already. -/
inductive Along (n : Nat) (cs : List Char) : Reading → Reading → Prop
  | within {opens after : Bool} {found : List Piece} {rest : List Char}
    (hslashes : rest = [] → ∀ before, found ≠ .slashes :: before)
    (hspan : rest = [] → ¬ EndsInSpan found) :
    Along n cs ⟨opens, after, found, rest⟩ ⟨opens, after, found, rest ++ slashed n cs⟩
  | slashes {before : List Piece} :
    Along n cs ⟨true, false, .slashes :: before, []⟩ ⟨true, false, .slashes :: before, cs⟩
  | span {found : List Piece} (hspan : EndsInSpan found) (m : Nat) :
    Along n cs ⟨true, true, found, []⟩ ⟨true, true, found, List.replicate m '/' ++ cs⟩

section Tail

variable {n : Nat} {cs : List Char} {p : Piece} {before : List Piece}

lemma along_plain (hslashes : p ≠ .slashes) (hspan : ∀ inner, p ≠ .segments inner)
    (rest : List Char) :
    Along n cs ⟨false, false, p :: before, rest⟩
      ⟨false, false, p :: before, rest ++ slashed n cs⟩ := by
  refine .within (fun _ before heq => hslashes (List.cons.inj heq).1) ?_
  rintro - ⟨inner, before, heq⟩
  exact hspan inner (List.cons.inj heq).1

lemma inert_slashed (h : IsInert cs) (n : Nat) : IsInert (slashed n cs) := by
  intro c hc
  rcases List.mem_append.mp hc with hc | hc
  · exact .inl (List.eq_of_mem_replicate hc)
  · exact h c hc

lemma next_star_slashed (hend : rest ≠ ['*']) (hslash : ¬ ['*', '/'] <+: rest) :
    Next ⟨true, after, found, '*' :: (rest ++ slashed n cs)⟩
      ⟨false, false, .star true :: found, rest.dropWhile (· == '*') ++ slashed n cs⟩ := by
  have hdrop : (rest ++ slashed n cs).dropWhile (· == '*') =
      rest.dropWhile (· == '*') ++ slashed n cs := by
    rw [List.dropWhile_append]
    split
    · next hempty =>
      rw [List.isEmpty_iff.mp hempty]
      rfl
    · rfl
  rw [← hdrop]
  refine .star ?_ ?_
  · intro heq
    have hmem : '/' ∈ ['*'] := heq ▸ List.mem_append_right rest List.mem_cons_self
    simp at hmem
  · rcases rest with _ | ⟨c, _ | ⟨d, rest⟩⟩
    · simp [slashed, List.replicate_succ]
    · intro hprefix
      obtain ⟨rfl, -⟩ := List.cons_prefix_cons.mp hprefix
      exact hend rfl
    · simpa using hslash

variable (hcs : cs.head? ≠ some '/')

include hcs

lemma dropWhile_replicate_append (n : Nat) :
    (List.replicate n '/' ++ cs).dropWhile (· == '/') = cs := by
  have hall : ∀ c ∈ List.replicate n '/', (c == '/') = true := fun c hc =>
    beq_iff_eq.mpr (List.eq_of_mem_replicate hc)
  rw [List.dropWhile_append_of_pos hall]
  rcases cs with _ | ⟨c, cs⟩
  · rfl
  · rw [List.dropWhile_cons, if_neg (by simpa using hcs)]

lemma dropWhile_append_slashed (rest : List Char) :
    (rest ++ slashed n cs).dropWhile (· == '/') =
      if rest.dropWhile (· == '/') = [] then cs
      else rest.dropWhile (· == '/') ++ slashed n cs := by
  rw [List.dropWhile_append, slashed, dropWhile_replicate_append hcs]
  simp only [List.isEmpty_iff]

lemma along_slashes (rest : List Char) :
    Along n cs ⟨true, false, .slashes :: before, rest.dropWhile (· == '/')⟩
      ⟨true, false, .slashes :: before, (rest ++ slashed n cs).dropWhile (· == '/')⟩ := by
  rw [dropWhile_append_slashed hcs]
  split
  · next hend =>
    rw [hend]
    exact .slashes
  · next hend => exact .within (absurd · hend) (absurd · hend)

lemma along_span (hfound : after = true → EndsInSpan found) (rest : List Char) :
    Along n cs (span after found rest) (span after found (rest ++ slashed n cs)) := by
  cases after
  · rw [span, span, if_neg Bool.false_ne_true, if_neg Bool.false_ne_true,
      dropWhile_append_slashed hcs]
    split
    · next hend =>
      rw [hend]
      exact .span (endsInSpan_spanned found) 0
    · next hend => exact .within (absurd · hend) (absurd · hend)
  · rw [span, span, if_pos rfl, if_pos rfl]
    by_cases hend : rest = []
    · rw [hend]
      exact .span (hfound rfl) (n + 1)
    · exact .within (absurd · hend) (absurd · hend)

lemma along_spanEnd (hfound : after = true → EndsInSpan found) :
    Along n cs (span after found []) (span after found (List.replicate n '/' ++ cs)) := by
  cases after
  · rw [span, span, if_neg Bool.false_ne_true, if_neg Bool.false_ne_true,
      dropWhile_replicate_append hcs]
    exact .span (endsInSpan_spanned found) 0
  · rw [span, span, if_pos rfl, if_pos rfl]
    exact .span (hfound rfl) n

lemma exists_next_along (hinert : IsInert cs) {r₂ : Reading} (halong : Along n cs r r₂)
    (hnext : Next r r') (hsound : r.Sound) : ∃ r₂', Next r₂ r₂' ∧ Along n cs r' r₂' := by
  have hread (rest : List Char) : BracketPart.readSet (rest ++ slashed n cs) =
      (BracketPart.readSet rest).map (Braced.withTail (slashed n cs)) :=
    BracketPart.readSet_append (inert_slashed hinert n) rest
  cases halong with
  | slashes => exact absurd rfl (ne_nil_of_next hnext)
  | span => exact absurd rfl (ne_nil_of_next hnext)
  | within =>
    cases hnext with
    | inner => exact ⟨_, .inner, along_plain (by simp) (by simp) _⟩
    | spanEnd => exact ⟨_, .span, along_spanEnd hcs hsound⟩
    | span => exact ⟨_, .span, along_span hcs hsound _⟩
    | star hend hslash =>
      exact ⟨_, next_star_slashed hend hslash, along_plain (by simp) (by simp) _⟩
    | any => exact ⟨_, .any, along_plain (by simp) (by simp) _⟩
    | slash => exact ⟨_, .slash, along_slashes hcs _⟩
    | set hset =>
      refine ⟨_, .set ?_, along_plain (by simp) (by simp) _⟩
      exact (hread _).trans (by rw [hset]; rfl)
    | char hstar hany hslash hset =>
      refine ⟨_, .char hstar hany hslash fun hopen => ?_, along_plain (by simp) (by simp) _⟩
      exact (hread _).trans (by rw [hset hopen]; rfl)

lemma exists_end_along (hinert : IsInert cs) {r₂ : Reading} (halong : Along n cs r r₂)
    (hsound : r.Sound) : ∃ r' r₂', Along n cs r' r₂' ∧ r'.rest = [] ∧
      r.pieces = r'.found.reverse ∧ r₂.pieces = r₂'.pieces := by
  obtain ⟨r', ⟨-, r₂', halong', hpieces⟩, hend, hpieces'⟩ := exists_end
    (P := fun x => x.Sound ∧ ∃ y, Along n cs x y ∧ r₂.pieces = y.pieces)
    (by
      rintro x x' hnext ⟨hsound, y, halong, hpieces⟩
      obtain ⟨y', hnext', halong'⟩ := exists_next_along hcs hinert halong hnext hsound
      exact ⟨sound_of_next hnext hsound, y', halong', hpieces.trans (pieces_of_next hnext')⟩)
    r ⟨hsound, r₂, halong, rfl⟩
  exact ⟨r', r₂', halong', hend, hpieces', hpieces⟩

end Tail

/-- The reading at the start of a pattern. -/
def start (cs : List Char) : Reading := ⟨true, false, [], cs⟩

end Reading

open Reading

variable {cs : List Char} {ps : List Piece}

lemma exists_end_start (tail : List Char) (hinert : IsInert tail) (htail : tail.head? ≠ some '/')
    (n : Nat) (cs : List Char) : ∃ r r', Along n tail r r' ∧ r.rest = [] ∧
      pieces cs = r.found.reverse ∧ pieces (cs ++ slashed n tail) = r'.pieces := by
  have halong : Along n tail (start cs) (start (cs ++ slashed n tail)) :=
    .within (fun _ _ => (List.cons_ne_nil _ _).symm) (by rintro - ⟨_, _, heq⟩; cases heq)
  exact exists_end_along htail hinert halong (fun h => Bool.noConfusion h)

/-- The pieces with a span of segments behind them. -/
def covered : List Piece → List Piece
  | [] => [.segments true]
  | [.slashes] => [.segments true]
  | [.segments inner] => [.segments inner]
  | p :: ps => p :: covered ps

lemma covered_concat (ps : List Piece) (p : Piece) : covered (ps ++ [p]) = ps ++ covered [p] := by
  induction ps with
  | nil => rfl
  | cons q ps ih =>
    have hne : ps ++ [p] ≠ [] := by simp
    rw [List.cons_append, List.cons_append, ← ih]
    obtain ⟨p', ps', hps⟩ := List.exists_cons_of_ne_nil hne
    rw [hps]
    cases q <;> rfl

/-- The last piece is a span of segments. -/
def IsSpanned (ps : List Piece) : Prop := ∃ front inner, ps = front ++ [.segments inner]

lemma covered_of_isSpanned (h : IsSpanned ps) : covered ps = ps := by
  obtain ⟨front, inner, rfl⟩ := h
  rw [covered_concat]
  rfl

lemma isSpanned_reverse {found : List Piece} (h : EndsInSpan found) : IsSpanned found.reverse := by
  obtain ⟨inner, before, rfl⟩ := h
  exact ⟨before.reverse, inner, List.reverse_cons⟩

lemma isSpanned_covered (ps : List Piece) : IsSpanned (covered ps) := by
  rcases List.eq_nil_or_concat' ps with rfl | ⟨front, p, rfl⟩
  · exact ⟨[], true, rfl⟩
  rw [covered_concat]
  cases p with
  | slashes => exact ⟨front, true, rfl⟩
  | segments inner => exact ⟨front, inner, rfl⟩
  | char c => exact ⟨front ++ [.char c], true, by rw [List.append_assoc]; rfl⟩
  | set opens s => exact ⟨front ++ [.set opens s], true, by rw [List.append_assoc]; rfl⟩
  | star opens => exact ⟨front ++ [.star opens], true, by rw [List.append_assoc]; rfl⟩

lemma covered_reverse {found : List Piece} (hslashes : ∀ before, found ≠ .slashes :: before)
    (hspan : ¬ EndsInSpan found) : covered found.reverse = (.segments true :: found).reverse := by
  rcases found with _ | ⟨p, found⟩
  · rfl
  rw [List.reverse_cons, covered_concat, List.reverse_cons, List.reverse_cons, List.append_assoc]
  cases p with
  | slashes => exact absurd rfl (hslashes found)
  | segments inner => exact absurd ⟨inner, found, rfl⟩ hspan
  | _ => rfl

lemma pieces_append_slashes (cs : List Char) (n : Nat) :
    pieces (cs ++ List.replicate n '/') = pieces cs ∨
      pieces (cs ++ List.replicate n '/') = pieces cs ++ [.slashes] := by
  have hslashes (opens after : Bool) (found : List Piece) (n : Nat) :
      Reading.pieces ⟨opens, after, found, slashed n []⟩ = found.reverse ++ [.slashes] := by
    have hnext : Next ⟨opens, after, found, slashed n []⟩
        ⟨true, false, .slashes :: found, (List.replicate n '/' ++ []).dropWhile (· == '/')⟩ :=
      .slash
    rw [pieces_of_next hnext, dropWhile_replicate_append (by simp) n]
    exact List.reverse_cons
  rcases n with _ | n
  · exact .inl (by simp)
  obtain ⟨r, r', halong, hend, hpieces, hpieces'⟩ :=
    exists_end_start [] isInert_nil (by simp) n cs
  rw [slashed, List.append_nil] at hpieces'
  rw [hpieces, hpieces']
  cases halong with
  | within =>
    obtain rfl := hend
    exact .inr (hslashes _ _ _ n)
  | slashes => exact .inl rfl
  | span hspan m =>
    rcases m with _ | m
    · exact .inl rfl
    · exact .inr (hslashes _ _ _ m)

/-- With `/**` behind it, a pattern has a span behind its pieces, or it ends in one itself. -/
lemma pieces_below (cs : List Char) : pieces (below cs) = covered (pieces cs) ∨
    IsSpanned (pieces cs) ∧ IsSpanned (pieces (below cs)) := by
  obtain ⟨r, r', halong, hend, hpieces, hpieces'⟩ :=
    exists_end_start ['*', '*'] (by simp [IsInert]) (by simp) 0 cs
  have hbelow : pieces (below cs) = r'.pieces := hpieces'
  rw [hpieces, hbelow]
  cases halong with
  | within hslashes hspan =>
    obtain rfl := hend
    exact .inl (covered_reverse (hslashes rfl) (hspan rfl)).symm
  | slashes =>
    refine .inl ?_
    rw [List.reverse_cons, covered_concat]
    exact List.reverse_cons
  | @span found hspan m =>
    refine .inr ⟨isSpanned_reverse hspan, ?_⟩
    rcases m with _ | m
    · exact isSpanned_reverse hspan
    · have hnext : Next ⟨true, true, found, List.replicate (m + 1) '/' ++ ['*', '*']⟩
          ⟨true, false, .slashes :: found,
            (List.replicate m '/' ++ ['*', '*']).dropWhile (· == '/')⟩ := .slash
      rw [pieces_of_next hnext, dropWhile_replicate_append (by simp) m]
      exact isSpanned_reverse ⟨true, found, rfl⟩

lemma isSpanned_pieces_below (cs : List Char) : IsSpanned (pieces (below cs)) := by
  rcases pieces_below cs with heq | ⟨-, hspanned⟩
  · rw [heq]
    exact isSpanned_covered _
  · exact hspanned

/-! ### Spans among the pieces -/

/-- A span that is no first piece looks for a slash, and behind a span a segment opens. -/
def Follows (p q : Piece) : Prop :=
  q ≠ .segments false ∧ ∀ inner, p = .segments inner → q ≠ .star false

namespace Reading

/-- The pieces so far follow one another, and behind a span a segment opens. -/
def InOrder (r : Reading) : Prop :=
  r.found.IsChain (fun q p => Follows p q) ∧ (EndsInSpan r.found → r.opens = true)

variable {r r' : Reading} {opens after : Bool} {found : List Piece} {p : Piece}

lemma isChain_cons_piece (h : found.IsChain fun q p => Follows p q) (hspan : p ≠ .segments false)
    (hstar : EndsInSpan found → p ≠ .star false) :
    (p :: found).IsChain fun q p => Follows p q := by
  rcases found with _ | ⟨q, found⟩
  · exact .singleton p
  · refine .cons_cons ⟨hspan, ?_⟩ h
    rintro inner rfl
    exact hstar ⟨inner, found, rfl⟩

lemma not_endsInSpan_cons (h : ∀ inner, p ≠ .segments inner) : ¬ EndsInSpan (p :: found) := by
  rintro ⟨inner, before, heq⟩
  exact h inner (List.cons.inj heq).1

lemma inOrder_cons (h : found.IsChain fun q p => Follows p q) (hspan : ∀ inner, p ≠ .segments inner)
    (hstar : p ≠ .star false) (rest : List Char) : InOrder ⟨opens, after, p :: found, rest⟩ :=
  ⟨isChain_cons_piece h (hspan false) fun _ => hstar,
    fun hends => absurd hends (not_endsInSpan_cons hspan)⟩

lemma isChain_spanned (h : found.IsChain fun q p => Follows p q) :
    (spanned found).IsChain fun q p => Follows p q := by
  unfold spanned
  split
  · exact isChain_cons_piece h.tail (by simp) fun _ => by simp
  · rcases found with _ | ⟨p, found⟩
    · exact .singleton _
    · exact isChain_cons_piece h (by simp) fun _ => by simp

lemma inOrder_span (h : found.IsChain fun q p => Follows p q) (rest : List Char) :
    (span after found rest).InOrder := by
  cases after
  · exact ⟨isChain_spanned h, fun _ => rfl⟩
  · exact ⟨h, fun _ => rfl⟩

lemma inOrder_of_next (h : Next r r') (hr : r.InOrder) : r'.InOrder := by
  cases h with
  | inner =>
    refine ⟨isChain_cons_piece hr.1 (by simp) fun hends => Bool.noConfusion (hr.2 hends), ?_⟩
    exact fun hends => absurd hends (not_endsInSpan_cons (by simp))
  | spanEnd => exact inOrder_span hr.1 _
  | span => exact inOrder_span hr.1 _
  | _ => exact inOrder_cons hr.1 (by simp) (by simp) _

end Reading

lemma isChain_pieces (cs : List Char) : (pieces cs).IsChain Follows := by
  obtain ⟨r, hr, -, hpieces⟩ := exists_end (P := Reading.InOrder)
    (fun _ _ => Reading.inOrder_of_next) (start cs) ⟨.nil, by rintro ⟨_, _, heq⟩; cases heq⟩
  have heq : pieces cs = r.found.reverse := hpieces
  rw [heq]
  exact List.isChain_reverse.mpr hr.1

lemma hasStars_cons (c : Char) (cs : List Char) :
    hasStars (c :: cs) = (c == '*' && cs.head? == some '*' || hasStars cs) := by
  rw [hasStars.eq_def]
  split
  · next heq =>
    obtain ⟨rfl, rfl⟩ := List.cons.inj heq
    rfl
  · next hne heq =>
    obtain ⟨rfl, rfl⟩ := List.cons.inj heq
    have hhead : (c == '*' && cs.head? == some '*') = false := by
      refine Bool.eq_false_iff.mpr fun hhead => ?_
      simp only [Bool.and_eq_true, beq_iff_eq, List.head?_eq_some_iff] at hhead
      obtain ⟨rfl, rest, rfl⟩ := hhead
      exact hne rest rfl rfl
    rw [hhead, Bool.false_or]
  · next heq => cases heq

lemma hasStars_of_suffix {cs' : List Char} (h : cs' <:+ cs) (hstars : hasStars cs = false) :
    hasStars cs' = false := by
  induction cs with
  | nil => rw [List.suffix_nil.mp h, hstars]
  | cons c cs ih =>
    rcases List.suffix_cons_iff.mp h with rfl | h
    · exact hstars
    · rw [hasStars_cons, Bool.or_eq_false_iff] at hstars
      exact ih h hstars.2

end Letterhead.Pattern.Glob
