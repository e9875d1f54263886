import Mathlib.Data.List.Basic
import Mathlib.Data.List.Infix
import Letterhead.Pattern.Glob.Brace

/-!
What stands behind a pattern, if it is made of slashes and stars, stands behind each of the patterns
that the braces stand for.

Slashes and stars neither open nor part nor close a group, and they end a range. So a group is read
the same with such a tail behind it, and one that is left open stays open.
-/

namespace Letterhead.Pattern.Glob

/-- The characters mean nothing to braces. -/
def IsInert (tail : List Char) : Prop := ∀ c ∈ tail, c = '/' ∨ c = '*'

lemma isInert_nil : IsInert [] := List.forall_mem_nil _

lemma IsInert.tail {c : Char} {tail : List Char} (h : IsInert (c :: tail)) : IsInert tail :=
  fun d hd => h d (List.mem_cons_of_mem c hd)

lemma IsInert.head {c : Char} {tail : List Char} (h : IsInert (c :: tail)) : c = '/' ∨ c = '*' :=
  h c List.mem_cons_self

namespace Braced

variable {cs tail rest : List Char} {α : Type}

/-! ### Ranges -/

/-- What is read is the same with a tail behind, which is left over. -/
def PassesTail (f : List Char → Option (α × List Char)) : Prop :=
  ∀ cs tail, IsInert tail → f (cs ++ tail) = (f cs).map fun r => (r.1, r.2 ++ tail)

/-- What is left over is an end of what there was. -/
def LeavesEnd (f : List Char → Option (α × List Char)) : Prop :=
  ∀ cs a rest, f cs = some (a, rest) → rest <:+ cs

section Inert

variable {p : Char → Bool} (h : IsInert tail) (hslash : p '/' = false) (hstar : p '*' = false)

include h hslash hstar

lemma takeWhile_append_inert (cs : List Char) : (cs ++ tail).takeWhile p = cs.takeWhile p := by
  induction cs with
  | nil =>
    rcases tail with _ | ⟨c, tail⟩
    · rfl
    · rcases h.head with rfl | rfl
      · rw [List.nil_append, List.takeWhile_cons, hslash]; rfl
      · rw [List.nil_append, List.takeWhile_cons, hstar]; rfl
  | cons c cs ih => rw [List.cons_append, List.takeWhile_cons, List.takeWhile_cons, ih]

lemma dropWhile_append_inert (cs : List Char) :
    (cs ++ tail).dropWhile p = cs.dropWhile p ++ tail := by
  induction cs with
  | nil =>
    rcases tail with _ | ⟨c, tail⟩
    · rfl
    · rcases h.head with rfl | rfl
      · rw [List.nil_append, List.dropWhile_cons, hslash]; rfl
      · rw [List.nil_append, List.dropWhile_cons, hstar]; rfl
  | cons c cs ih =>
    rw [List.cons_append, List.dropWhile_cons, List.dropWhile_cons, ih]
    split <;> rfl

end Inert

/-- The number that stands behind its sign. -/
def readDigits (sign cs : List Char) : Option (Bound × List Char) :=
  let isDigit (c : Char) := (CodePoint.ofChar c).isDigit
  let ds := cs.takeWhile isDigit
  if ds.isEmpty then none
  else
    let n : Nat := (ds.filterMap fun c => (CodePoint.ofChar c).digitValue?).foldl
      (fun n d => 10 * n + d) 0
    some (⟨sign ++ ds, if sign.isEmpty then (n : Int) else -(n : Int)⟩, cs.dropWhile isDigit)

lemma passesTail_readDigits (sign : List Char) : PassesTail (readDigits sign) := by
  intro cs tail h
  have hslash : (CodePoint.ofChar '/').isDigit = false := by decide
  have hstar : (CodePoint.ofChar '*').isDigit = false := by decide
  unfold readDigits
  dsimp only
  rw [takeWhile_append_inert h hslash hstar, dropWhile_append_inert h hslash hstar]
  split <;> rfl

lemma readBound_minus (cs : List Char) : readBound ('-' :: cs) = readDigits ['-'] cs := rfl

lemma readBound_eq (h : cs.head? ≠ some '-') : readBound cs = readDigits [] cs := by
  rw [readBound.eq_def]
  split
  · next heq =>
    split at heq
    · exact absurd rfl h
    · obtain ⟨rfl, rfl⟩ := Prod.mk.inj heq
      rfl

lemma passesTail_readBound : PassesTail readBound := by
  intro cs tail h
  by_cases hminus : cs.head? = some '-'
  · obtain ⟨rest, rfl⟩ := List.head?_eq_some_iff.mp hminus
    rw [List.cons_append, readBound_minus, readBound_minus, passesTail_readDigits _ _ _ h]
  · have hminus' : (cs ++ tail).head? ≠ some '-' := by
      rcases cs with _ | ⟨c, cs⟩
      · rcases tail with _ | ⟨c, tail⟩
        · simp
        · rcases h.head with rfl | rfl <;> simp
      · simpa using hminus
    rw [readBound_eq hminus, readBound_eq hminus', passesTail_readDigits _ _ _ h]

lemma leavesEnd_readBound : LeavesEnd readBound := by
  have hdigits : ∀ sign, LeavesEnd (readDigits sign) := by
    intro sign cs b rest h
    unfold readDigits at h
    dsimp only at h
    split at h
    · cases h
    · obtain ⟨-, rfl⟩ := Prod.mk.inj (Option.some.inj h)
      exact List.dropWhile_suffix _
  intro cs b rest h
  by_cases hminus : cs.head? = some '-'
  · obtain ⟨cs, rfl⟩ := List.head?_eq_some_iff.mp hminus
    exact (hdigits _ _ _ _ (readBound_minus cs ▸ h)).trans (List.suffix_cons _ _)
  · exact hdigits _ _ _ _ (readBound_eq hminus ▸ h)

lemma readDots_eq_none {c d : Char} (h : ¬ (c = '.' ∧ d = '.')) :
    readDots (c :: d :: cs) = none := by
  unfold readDots
  split
  · next heq =>
    simp only [List.cons.injEq] at heq
    exact absurd ⟨heq.1, heq.2.1⟩ h
  · rfl

lemma readDots_append (h : IsInert tail) (cs : List Char) :
    readDots (cs ++ tail) = (readDots cs).map (· ++ tail) := by
  rcases cs with _ | ⟨c, _ | ⟨d, cs⟩⟩
  · rcases tail with _ | ⟨c, tail⟩
    · rfl
    · rcases h.head with rfl | rfl <;> rfl
  · rcases tail with _ | ⟨d, tail⟩
    · simp [readDots]
    · rcases h.head with rfl | rfl <;> simp [readDots]
  · by_cases hdots : c = '.' ∧ d = '.'
    · obtain ⟨rfl, rfl⟩ := hdots
      rfl
    · rw [List.cons_append, List.cons_append, readDots_eq_none hdots, readDots_eq_none hdots]
      rfl

/-- The text behind a closing brace. -/
def readClosing : List Char → Option (List Char)
  | '\x7d' :: rest => some rest
  | _ => none

lemma head?_append_inert_ne (h : IsInert tail) {c : Char} (hslash : c ≠ '/') (hstar : c ≠ '*')
    (hne : cs.head? ≠ some c) : (cs ++ tail).head? ≠ some c := by
  rcases cs with _ | ⟨d, cs⟩
  · rcases tail with _ | ⟨d, tail⟩
    · simp
    · rcases h.head with rfl | rfl
      · simpa using hslash.symm
      · simpa using hstar.symm
  · simpa using hne

lemma readClosing_eq_none (h : cs.head? ≠ some '\x7d') : readClosing cs = none := by
  unfold readClosing
  split
  · exact absurd rfl h
  · rfl

lemma readClosing_append (h : IsInert tail) (cs : List Char) :
    readClosing (cs ++ tail) = (readClosing cs).map (· ++ tail) := by
  by_cases hclose : cs.head? = some '\x7d'
  · obtain ⟨rest, rfl⟩ := List.head?_eq_some_iff.mp hclose
    rfl
  · rw [readClosing_eq_none hclose,
      readClosing_eq_none (head?_append_inert_ne h (by decide) (by decide) hclose)]
    rfl

lemma readStep_eq (h : cs.head? ≠ some '\x7d') : readStep cs =
    (readDots cs).bind fun r => (readBound r).bind fun b =>
      (readClosing b.2).map fun rest => (some b.1.value, rest) := by
  rw [readStep.eq_def]
  split
  · exact absurd rfl h
  · rcases readDots cs with _ | r
    · rfl
    rcases hb : readBound r with _ | ⟨b, rest⟩
    · simp [hb]
    · simp only [Option.bind_eq_bind, Option.bind_some, hb]
      by_cases hclose : rest.head? = some '\x7d'
      · obtain ⟨rest, rfl⟩ := List.head?_eq_some_iff.mp hclose
        rfl
      · rw [readClosing_eq_none hclose]
        split
        · exact absurd rfl hclose
        · rfl

lemma passesTail_readStep : PassesTail readStep := by
  intro cs tail h
  by_cases hclose : cs.head? = some '\x7d'
  · obtain ⟨rest, rfl⟩ := List.head?_eq_some_iff.mp hclose
    rfl
  · rw [readStep_eq hclose,
      readStep_eq (head?_append_inert_ne h (by decide) (by decide) hclose), readDots_append h]
    rcases readDots cs with _ | r
    · rfl
    rw [Option.map_some, Option.bind_some, Option.bind_some, passesTail_readBound _ _ h]
    rcases readBound r with _ | ⟨b, rest⟩
    · rfl
    simp only [Option.map_some, Option.bind_some, readClosing_append h, Option.map_map]
    rfl

lemma passesTail_readNumbers : PassesTail readNumbers := by
  intro cs tail h
  unfold readNumbers
  rw [passesTail_readBound _ _ h]
  rcases readBound cs with _ | ⟨first, rest⟩
  · rfl
  simp only [Option.map_some, Option.bind_eq_bind, Option.bind_some, readDots_append h]
  rcases readDots rest with _ | rest
  · rfl
  simp only [Option.map_some, Option.bind_some, passesTail_readBound _ _ h]
  rcases readBound rest with _ | ⟨last, rest⟩
  · rfl
  simp only [Option.map_some, Option.bind_some, passesTail_readStep _ _ h]
  rcases readStep rest with _ | ⟨step, rest⟩
  · rfl
  · rfl

/-- The second letter of a range and its step. -/
def readLast (first : Char) : List Char → Option (Braced × List Char)
  | last :: rest =>
    if isLetter first && isLetter last then
      (readStep rest).map fun (step, rest) => (letterRange first last step, rest)
    else none
  | [] => none

lemma passesTail_readLast (first : Char) : PassesTail (readLast first) := by
  intro cs tail h
  rcases cs with _ | ⟨last, cs⟩
  · rcases tail with _ | ⟨c, tail⟩
    · rfl
    · have hletter : isLetter c = false := by rcases h.head with rfl | rfl <;> decide
      rw [List.nil_append, readLast, hletter, Bool.and_false]
      rfl
  · rw [List.cons_append, readLast, readLast, passesTail_readStep _ _ h]
    split
    · simp [Option.map_map, Function.comp_def]
    · rfl

lemma readLetters_cons (first : Char) (cs : List Char) :
    readLetters (first :: cs) = (readDots cs).bind (readLast first) := by
  rcases cs with _ | ⟨c, _ | ⟨d, cs⟩⟩
  · rfl
  · simp [readLetters, readDots]
  · by_cases hdots : c = '.' ∧ d = '.'
    · obtain ⟨rfl, rfl⟩ := hdots
      rcases cs with _ | ⟨last, cs⟩ <;> rfl
    · rw [readDots_eq_none hdots, readLetters.eq_def]
      split
      · next heq =>
        simp only [List.cons.injEq] at heq
        exact absurd ⟨heq.2.1, heq.2.2.1⟩ hdots
      · rfl

lemma passesTail_readLetters : PassesTail readLetters := by
  intro cs tail h
  rcases cs with _ | ⟨first, cs⟩
  · rcases tail with _ | ⟨c, tail⟩
    · rfl
    · have hdots := readDots_append h.tail []
      rw [List.nil_append] at hdots
      rw [List.nil_append, readLetters_cons, hdots]
      rfl
  · rw [List.cons_append, readLetters_cons, readLetters_cons, readDots_append h]
    rcases readDots cs with _ | rest
    · rfl
    · exact passesTail_readLast first _ _ h

lemma passesTail_readRange : PassesTail readRange := by
  intro cs tail h
  rw [readRange, readRange, passesTail_readNumbers _ _ h, passesTail_readLetters _ _ h]
  cases readNumbers cs <;> rfl

/-! ### What ranges leave over -/

lemma suffix_of_readDots (h : readDots cs = some rest) : rest <:+ cs := by
  unfold readDots at h
  split at h
  · obtain rfl := Option.some.inj h
    exact List.suffix_append ['.', '.'] _
  · cases h

lemma suffix_of_readClosing (h : readClosing cs = some rest) : rest <:+ cs := by
  unfold readClosing at h
  split at h
  · obtain rfl := Option.some.inj h
    exact List.suffix_cons _ _
  · cases h

lemma leavesEnd_readStep : LeavesEnd readStep := by
  intro cs step rest h
  by_cases hclose : cs.head? = some '\x7d'
  · obtain ⟨cs, rfl⟩ := List.head?_eq_some_iff.mp hclose
    obtain ⟨-, rfl⟩ := Prod.mk.inj (Option.some.inj h)
    exact List.suffix_cons _ _
  · rw [readStep_eq hclose] at h
    obtain ⟨r, hr, h⟩ := Option.bind_eq_some_iff.mp h
    obtain ⟨⟨b, r'⟩, hb, h⟩ := Option.bind_eq_some_iff.mp h
    obtain ⟨r'', hr'', heq⟩ := Option.map_eq_some_iff.mp h
    obtain ⟨-, rfl⟩ := Prod.mk.inj heq
    exact ((suffix_of_readClosing hr'').trans (leavesEnd_readBound _ _ _ hb)).trans
      (suffix_of_readDots hr)

lemma leavesEnd_readRange : LeavesEnd readRange := by
  intro cs item rest h
  rw [readRange, Option.or_eq_some_iff] at h
  rcases h with h | ⟨-, h⟩
  · obtain ⟨⟨first, r₁⟩, h₁, h⟩ := Option.bind_eq_some_iff.mp h
    obtain ⟨r₂, h₂, h⟩ := Option.bind_eq_some_iff.mp h
    obtain ⟨⟨last, r₃⟩, h₃, h⟩ := Option.bind_eq_some_iff.mp h
    obtain ⟨⟨step, r₄⟩, h₄, h⟩ := Option.bind_eq_some_iff.mp h
    obtain ⟨-, rfl⟩ := Prod.mk.inj (Option.some.inj h)
    have hfirst : r₂ <:+ cs := (suffix_of_readDots h₂).trans (leavesEnd_readBound _ _ _ h₁)
    exact ((leavesEnd_readStep _ _ _ h₄).trans (leavesEnd_readBound _ _ _ h₃)).trans hfirst
  · rcases cs with _ | ⟨first, cs⟩
    · cases h
    rw [readLetters_cons] at h
    obtain ⟨r, hr, h⟩ := Option.bind_eq_some_iff.mp h
    rcases r with _ | ⟨last, r⟩
    · cases h
    rw [readLast] at h
    split at h
    · obtain ⟨⟨step, r'⟩, hstep, heq⟩ := Option.map_eq_some_iff.mp h
      obtain ⟨-, rfl⟩ := Prod.mk.inj heq
      exact ((leavesEnd_readStep _ _ _ hstep).trans (List.suffix_cons _ _)).trans
        ((suffix_of_readDots hr).trans (List.suffix_cons _ _))
    · cases h

/-! ### Groups -/

variable {depth whole fuel fuel' : Nat} {dollar comma blank : Bool} {c : Char}
  {options : List (List Braced)} {items : List Braced}

/-- The first items behind a character: those of a group that it opens, or itself. -/
def firstItems (depth whole fuel : Nat) (dollar : Bool) (c : Char) (rest : List Char) :
    List Braced × List Char :=
  (if c = '\x7b' ∧ dollar = false then readGroup (depth + 1) whole fuel rest else none).getD
    ([.char c], rest)

/-- Within a group, a comma or a closing brace ends the items. -/
def IsEnd (depth : Nat) (c : Char) : Prop := 0 < depth ∧ (c = ',' ∨ c = '\x7d')

lemma readItems_end (h : IsEnd depth c) :
    readItems depth whole (fuel + 1) dollar (c :: rest) = some ([], c :: rest) := by
  rw [readItems, if_pos (by simpa [IsEnd] using h)]

lemma readItems_cons (h : ¬ IsEnd depth c) :
    readItems depth whole (fuel + 1) dollar (c :: rest) =
      (readItems depth whole fuel (c == '$') (firstItems depth whole fuel dollar c rest).2).map
        fun r => ((firstItems depth whole fuel dollar c rest).1 ++ r.1, r.2) := by
  rw [readItems, if_neg (by simpa [IsEnd] using h)]
  dsimp only [firstItems]
  by_cases hopen : c = '\x7b' ∧ dollar = false
  · rw [if_pos hopen, if_pos (by simpa using hopen)]
    cases readGroup (depth + 1) whole fuel rest <;> rfl
  · rw [if_neg hopen, if_neg (by simpa using hopen)]
    rfl

/-- The closing brace of an outermost group without a comma closes nothing. -/
def GoesOn (depth whole : Nat) (comma : Bool) (rest : List Char) : Prop :=
  depth = 1 ∧ comma = false ∧ rest.length + 2 ≠ whole

/-- The options with the empty one that a comma or a closing brace ends. -/
def ended (options : List (List Braced)) (blank : Bool) : List (List Braced) :=
  if blank then options ++ [[]] else options

/-- The items of a group that is closed. -/
def closed (options : List (List Braced)) (comma : Bool) : List Braced :=
  if comma then [.choice options] else .char '\x7b' :: options.flatten ++ [.char '\x7d']

lemma readOptions_comma : readOptions depth whole options comma blank (fuel + 1) (',' :: rest) =
    readOptions depth whole (ended options blank) true true fuel rest := by
  rw [readOptions, if_neg (by decide), if_pos rfl]
  rfl

lemma readOptions_close (h : ¬ GoesOn depth whole comma rest) :
    readOptions depth whole options comma blank (fuel + 1) ('\x7d' :: rest) =
      some (closed (ended options blank) comma, rest) := by
  rw [readOptions, if_pos rfl, if_neg (by simpa [GoesOn, and_assoc] using h)]
  cases blank <;> cases comma <;> rfl

lemma readOptions_goesOn (h : GoesOn depth whole comma rest) :
    readOptions depth whole options comma blank (fuel + 1) ('\x7d' :: rest) =
      if rest = [] then none
      else (readItems depth whole fuel false rest).bind fun r =>
        readOptions depth whole [options.flatten ++ .char '\x7d' :: r.1] comma false fuel r.2 := by
  rw [readOptions, if_pos rfl, if_pos (by simpa [GoesOn, and_assoc] using h)]
  rcases rest with _ | ⟨c, rest⟩
  · rfl
  · rw [if_neg (by simp), if_neg (by simp)]
    cases readItems depth whole fuel false (c :: rest) <;> rfl

lemma readOptions_item (h : ¬ (c = ',' ∨ c = '\x7d')) :
    readOptions depth whole options comma blank (fuel + 1) (c :: rest) =
      (readItems depth whole fuel false (c :: rest)).bind fun r =>
        readOptions depth whole (options ++ [r.1]) comma false fuel r.2 := by
  rw [not_or] at h
  rw [readOptions, if_neg h.2, if_neg h.1]
  cases readItems depth whole fuel false (c :: rest) <;> rfl

lemma suffix_firstItems (h : LeavesEnd (readGroup (depth + 1) whole fuel)) :
    (firstItems depth whole fuel dollar c cs).2 <:+ cs := by
  unfold firstItems
  split
  · rcases hgroup : readGroup (depth + 1) whole fuel cs with _ | ⟨items, rest⟩
    · exact List.suffix_rfl
    · exact h _ _ _ hgroup
  · exact List.suffix_rfl

/-- With so much fuel, what is left over is an end of what there was. -/
structure LeavesEndAt (fuel : Nat) : Prop where
  items depth whole dollar : LeavesEnd (readItems depth whole fuel dollar)
  group depth whole : LeavesEnd (readGroup depth whole fuel)
  options depth whole options comma blank :
    LeavesEnd (readOptions depth whole options comma blank fuel)

lemma LeavesEndAt.items_succ (h : LeavesEndAt fuel) (depth whole : Nat) (dollar : Bool) :
    LeavesEnd (readItems depth whole (fuel + 1) dollar) := by
  rintro (_ | ⟨c, cs⟩) items rest hread
  · rw [readItems] at hread
    split at hread
    · obtain ⟨-, rfl⟩ := Prod.mk.inj (Option.some.inj hread)
      exact List.suffix_rfl
    · cases hread
  by_cases hend : IsEnd depth c
  · rw [readItems_end hend] at hread
    obtain ⟨-, rfl⟩ := Prod.mk.inj (Option.some.inj hread)
    exact List.suffix_rfl
  · rw [readItems_cons hend] at hread
    obtain ⟨⟨found, left⟩, hfound, heq⟩ := Option.map_eq_some_iff.mp hread
    obtain ⟨-, rfl⟩ := Prod.mk.inj heq
    have hfirst : (firstItems depth whole fuel dollar c cs).2 <:+ cs :=
      suffix_firstItems (h.group (depth + 1) whole)
    exact ((h.items _ _ _ _ _ _ hfound).trans hfirst).trans (List.suffix_cons _ _)

lemma LeavesEndAt.group_succ (h : LeavesEndAt fuel) (depth whole : Nat) :
    LeavesEnd (readGroup depth whole (fuel + 1)) := by
  rintro cs items rest hread
  rw [readGroup] at hread
  split at hread
  · next hrange =>
    obtain ⟨-, rfl⟩ := Prod.mk.inj (Option.some.inj hread)
    exact leavesEnd_readRange _ _ _ hrange
  · exact h.options _ _ _ _ _ _ _ _ hread

lemma LeavesEndAt.options_succ (h : LeavesEndAt fuel) (depth whole : Nat)
    (options : List (List Braced)) (comma blank : Bool) :
    LeavesEnd (readOptions depth whole options comma blank (fuel + 1)) := by
  rintro (_ | ⟨c, cs⟩) items rest hread
  · rw [readOptions] at hread
    cases hread
  by_cases hcomma : c = ','
  · rw [hcomma, readOptions_comma] at hread
    exact (h.options _ _ _ _ _ _ _ _ hread).trans (List.suffix_cons _ _)
  by_cases hclose : c = '\x7d'
  · rw [hclose] at hread
    by_cases hgoes : GoesOn depth whole comma cs
    · rw [readOptions_goesOn hgoes] at hread
      split at hread
      · cases hread
      obtain ⟨⟨found, left⟩, hfound, hread⟩ := Option.bind_eq_some_iff.mp hread
      exact ((h.options _ _ _ _ _ _ _ _ hread).trans (h.items _ _ _ _ _ _ hfound)).trans
        (List.suffix_cons _ _)
    · rw [readOptions_close hgoes] at hread
      obtain ⟨-, rfl⟩ := Prod.mk.inj (Option.some.inj hread)
      exact List.suffix_cons _ _
  · rw [readOptions_item (by tauto)] at hread
    obtain ⟨⟨found, left⟩, hfound, hread⟩ := Option.bind_eq_some_iff.mp hread
    exact (h.options _ _ _ _ _ _ _ _ hread).trans (h.items _ _ _ _ _ _ hfound)

lemma leavesEndAt (fuel : Nat) : LeavesEndAt fuel := by
  induction fuel with
  | zero =>
    refine ⟨fun _ _ _ _ _ _ h => ?_, fun _ _ _ _ _ h => ?_, fun _ _ _ _ _ _ _ _ h => ?_⟩
    · rw [readItems] at h
      cases h
    · rw [readGroup] at h
      cases h
    · rw [readOptions] at h
      cases h
  | succ fuel ih => exact ⟨ih.items_succ, ih.group_succ, ih.options_succ⟩

lemma suffix_of_readItems_cons (hend : ¬ IsEnd depth c)
    (h : readItems depth whole fuel dollar (c :: cs) = some (items, rest)) : rest <:+ cs := by
  cases fuel with
  | zero =>
    rw [readItems] at h
    cases h
  | succ fuel =>
    rw [readItems_cons hend] at h
    obtain ⟨⟨found, left⟩, hleft, heq⟩ := Option.map_eq_some_iff.mp h
    obtain ⟨-, rfl⟩ := Prod.mk.inj heq
    exact ((leavesEndAt fuel).items _ _ _ _ _ _ hleft).trans
      (suffix_firstItems ((leavesEndAt fuel).group _ _))

/-! ### Groups with a tail behind -/

/-- What was read, with a tail behind what is left over. -/
def withTail (tail : List Char) (r : α × List Char) : α × List Char := (r.1, r.2 ++ tail)

lemma firstItems_of_ne (h : c ≠ '\x7b') :
    firstItems depth whole fuel dollar c rest = ([.char c], rest) := by
  rw [firstItems, if_neg fun hopen => h hopen.1]
  rfl

lemma firstItems_append (hgroup : c = '\x7b' → readGroup (depth + 1) (whole + tail.length) fuel'
      (cs ++ tail) = (readGroup (depth + 1) whole fuel cs).map (withTail tail)) :
    firstItems depth (whole + tail.length) fuel' dollar c (cs ++ tail) =
      withTail tail (firstItems depth whole fuel dollar c cs) := by
  unfold firstItems
  split
  · next hopen =>
    rw [hgroup hopen.1]
    cases readGroup (depth + 1) whole fuel cs <;> rfl
  · rfl

lemma goesOn_append :
    GoesOn depth (whole + tail.length) comma (cs ++ tail) ↔ GoesOn depth whole comma cs := by
  have hshift : (cs ++ tail).length + 2 ≠ whole + tail.length ↔ cs.length + 2 ≠ whole := by
    rw [List.length_append]
    omega
  rw [GoesOn, GoesOn, hshift]

/-- With so much fuel, a tail makes no difference within a group, and neither does more fuel than is
needed. -/
structure PassesAt (tail : List Char) (fuel : Nat) : Prop where
  items fuel' depth whole dollar cs : 0 < depth → 3 * cs.length + 1 ≤ fuel →
    3 * (cs.length + tail.length) + 1 ≤ fuel' →
    readItems depth (whole + tail.length) fuel' dollar (cs ++ tail) =
      (readItems depth whole fuel dollar cs).map (withTail tail)
  group fuel' depth whole cs : 0 < depth → 3 * cs.length + 3 ≤ fuel →
    3 * (cs.length + tail.length) + 3 ≤ fuel' →
    readGroup depth (whole + tail.length) fuel' (cs ++ tail) =
      (readGroup depth whole fuel cs).map (withTail tail)
  options fuel' depth whole options comma blank cs : 0 < depth → 3 * cs.length + 2 ≤ fuel →
    3 * (cs.length + tail.length) + 2 ≤ fuel' →
    readOptions depth (whole + tail.length) options comma blank fuel' (cs ++ tail) =
      (readOptions depth whole options comma blank fuel cs).map (withTail tail)

section Inert

variable (h : IsInert tail)

include h

lemma readItems_inert (hdepth : 0 < depth) : readItems depth whole fuel dollar tail = none := by
  induction tail generalizing fuel dollar with
  | nil =>
    cases fuel with
    | zero => rw [readItems]
    | succ fuel => rw [readItems, if_neg (by omega)]
  | cons c tail ih =>
    cases fuel with
    | zero => rw [readItems]
    | succ fuel =>
      have hend : ¬ IsEnd depth c := by
        rintro ⟨-, hend⟩
        rcases h.head with rfl | rfl <;> simp at hend
      have hopen : c ≠ '\x7b' := by rcases h.head with rfl | rfl <;> decide
      rw [readItems_cons hend, firstItems_of_ne hopen, ih h.tail]
      rfl

lemma readItems_inert_outside (hfuel : tail.length < fuel) :
    readItems 0 whole fuel dollar tail = some (tail.map .char, []) := by
  induction tail generalizing fuel dollar with
  | nil =>
    obtain ⟨fuel, rfl⟩ := Nat.exists_eq_succ_of_ne_zero (by omega : fuel ≠ 0)
    rw [readItems, if_pos rfl]
    rfl
  | cons c tail ih =>
    obtain ⟨fuel, rfl⟩ := Nat.exists_eq_succ_of_ne_zero (by omega : fuel ≠ 0)
    have hopen : c ≠ '\x7b' := by rcases h.head with rfl | rfl <;> decide
    rw [Nat.succ_eq_add_one, readItems_cons fun hend => Nat.lt_irrefl 0 hend.1,
      firstItems_of_ne hopen, ih h.tail (by simpa using hfuel)]
    rfl

lemma readOptions_inert (hdepth : 0 < depth) :
    readOptions depth whole options comma blank fuel tail = none := by
  cases fuel with
  | zero => rw [readOptions]
  | succ fuel =>
    rcases tail with _ | ⟨c, tail⟩
    · rw [readOptions]
    · rw [readOptions_item (by rcases h.head with rfl | rfl <;> simp), readItems_inert h hdepth]
      rfl

lemma PassesAt.items_succ (hp : PassesAt tail fuel) {fuel' : Nat} (whole : Nat) (dollar : Bool)
    (cs : List Char) (hdepth : 0 < depth) (hfuel : 3 * cs.length + 1 ≤ fuel + 1)
    (hfuel' : 3 * (cs.length + tail.length) + 1 ≤ fuel' + 1) :
    readItems depth (whole + tail.length) (fuel' + 1) dollar (cs ++ tail) =
      (readItems depth whole (fuel + 1) dollar cs).map (withTail tail) := by
  rcases cs with _ | ⟨c, cs⟩
  · rw [List.nil_append, readItems_inert h hdepth, readItems_inert isInert_nil hdepth]
    rfl
  rw [List.length_cons] at hfuel hfuel'
  by_cases hend : IsEnd depth c
  · rw [List.cons_append, readItems_end hend, readItems_end hend]
    rfl
  · have hfirst : firstItems depth (whole + tail.length) fuel' dollar c (cs ++ tail) =
        withTail tail (firstItems depth whole fuel dollar c cs) :=
      firstItems_append fun _ =>
        hp.group fuel' (depth + 1) whole cs (by omega) (by omega) (by omega)
    have hlength : (firstItems depth whole fuel dollar c cs).2.length ≤ cs.length :=
      (suffix_firstItems ((leavesEndAt fuel).group (depth + 1) whole)).length_le
    rw [List.cons_append, readItems_cons hend, readItems_cons hend, hfirst]
    dsimp only [withTail]
    rw [hp.items fuel' depth whole _ _ hdepth (by omega) (by omega), Option.map_map,
      Option.map_map]
    rfl

lemma PassesAt.group_succ (hp : PassesAt tail fuel) {fuel' : Nat} (whole : Nat) (cs : List Char)
    (hdepth : 0 < depth) (hfuel : 3 * cs.length + 3 ≤ fuel + 1)
    (hfuel' : 3 * (cs.length + tail.length) + 3 ≤ fuel' + 1) :
    readGroup depth (whole + tail.length) (fuel' + 1) (cs ++ tail) =
      (readGroup depth whole (fuel + 1) cs).map (withTail tail) := by
  rw [readGroup, readGroup, passesTail_readRange _ _ h]
  rcases readRange cs with _ | ⟨range, rest⟩
  · exact hp.options _ _ _ _ _ _ _ hdepth (by omega) (by omega)
  · rfl

lemma PassesAt.options_succ (hp : PassesAt tail fuel) {fuel' : Nat} (whole : Nat)
    (options : List (List Braced)) (comma blank : Bool) (cs : List Char) (hdepth : 0 < depth)
    (hfuel : 3 * cs.length + 2 ≤ fuel + 1)
    (hfuel' : 3 * (cs.length + tail.length) + 2 ≤ fuel' + 1) :
    readOptions depth (whole + tail.length) options comma blank (fuel' + 1) (cs ++ tail) =
      (readOptions depth whole options comma blank (fuel + 1) cs).map (withTail tail) := by
  rcases cs with _ | ⟨c, cs⟩
  · rw [List.nil_append, readOptions_inert h hdepth, readOptions_inert isInert_nil hdepth]
    rfl
  rw [List.length_cons] at hfuel hfuel'
  rw [List.cons_append]
  by_cases hcomma : c = ','
  · rw [hcomma, readOptions_comma, readOptions_comma]
    exact hp.options _ _ _ _ _ _ _ hdepth (by omega) (by omega)
  by_cases hclose : c = '\x7d'
  · rw [hclose]
    by_cases hgoes : GoesOn depth whole comma cs
    · rw [readOptions_goesOn (goesOn_append.mpr hgoes), readOptions_goesOn hgoes]
      by_cases hempty : cs = []
      · rw [hempty, List.nil_append, readItems_inert h hdepth]
        split <;> rfl
      rw [if_neg (by simp [hempty]), if_neg hempty,
        hp.items fuel' depth whole false cs hdepth (by omega) (by omega)]
      rcases hfound : readItems depth whole fuel false cs with _ | ⟨items, rest⟩
      · rfl
      have hle := ((leavesEndAt fuel).items _ _ _ _ _ _ hfound).length_le
      exact hp.options _ _ _ _ _ _ rest hdepth (by omega) (by omega)
    · rw [readOptions_close (mt goesOn_append.mp hgoes), readOptions_close hgoes]
      rfl
  · have hitem : ¬ (c = ',' ∨ c = '\x7d') := by tauto
    rw [readOptions_item hitem, readOptions_item hitem, ← List.cons_append,
      hp.items fuel' depth whole false (c :: cs) hdepth (by simp only [List.length_cons]; omega)
        (by simp only [List.length_cons]; omega)]
    rcases hfound : readItems depth whole fuel false (c :: cs) with _ | ⟨items, rest⟩
    · rfl
    have hle := (suffix_of_readItems_cons (fun hend => hitem hend.2) hfound).length_le
    exact hp.options _ _ _ _ _ _ rest hdepth (by omega) (by omega)

lemma passesAt (fuel : Nat) : PassesAt tail fuel := by
  induction fuel with
  | zero => exact ⟨by omega, by omega, by omega⟩
  | succ fuel ih =>
    refine ⟨?_, ?_, ?_⟩
    · rintro (_ | fuel') depth whole dollar cs hdepth hfuel hfuel'
      · omega
      · exact ih.items_succ h whole dollar cs hdepth hfuel hfuel'
    · rintro (_ | fuel') depth whole cs hdepth hfuel hfuel'
      · omega
      · exact ih.group_succ h whole cs hdepth hfuel hfuel'
    · rintro (_ | fuel') depth whole options comma blank cs hdepth hfuel hfuel'
      · omega
      · exact ih.options_succ h whole options comma blank cs hdepth hfuel hfuel'

lemma readItems_append_outside (whole fuel : Nat) : ∀ fuel' dollar cs, 3 * cs.length + 1 ≤ fuel →
    3 * (cs.length + tail.length) + 1 ≤ fuel' →
    ∃ items, readItems 0 whole fuel dollar cs = some (items, []) ∧
      readItems 0 (whole + tail.length) fuel' dollar (cs ++ tail) =
        some (items ++ tail.map .char, []) := by
  induction fuel with
  | zero => omega
  | succ fuel ih =>
    rintro fuel' dollar (_ | ⟨c, cs⟩) hfuel hfuel'
    · exact ⟨[], readItems_inert_outside isInert_nil (by simp),
        readItems_inert_outside h (by simp only [List.length_nil, List.nil_append] at *; omega)⟩
    obtain ⟨fuel', rfl⟩ := Nat.exists_eq_succ_of_ne_zero (by omega : fuel' ≠ 0)
    rw [List.length_cons] at hfuel hfuel'
    have hend : ¬ IsEnd 0 c := fun hend => Nat.lt_irrefl 0 hend.1
    have hfirst : firstItems 0 (whole + tail.length) fuel' dollar c (cs ++ tail) =
        withTail tail (firstItems 0 whole fuel dollar c cs) :=
      firstItems_append fun _ => (passesAt h fuel).group _ _ _ _ (by omega) (by omega) (by omega)
    have hlength : (firstItems 0 whole fuel dollar c cs).2.length ≤ cs.length :=
      (suffix_firstItems ((leavesEndAt fuel).group _ _)).length_le
    obtain ⟨items, hitems, hitems'⟩ :=
      ih fuel' (c == '$') (firstItems 0 whole fuel dollar c cs).2 (by omega) (by omega)
    refine ⟨(firstItems 0 whole fuel dollar c cs).1 ++ items, ?_, ?_⟩
    · rw [readItems_cons hend, hitems]
      rfl
    · rw [List.cons_append, Nat.succ_eq_add_one, readItems_cons hend, hfirst]
      dsimp only [withTail]
      rw [hitems', Option.map_some, List.append_assoc]

lemma ofPattern_append (cs : List Char) :
    ofPattern (cs ++ tail) = ofPattern cs ++ tail.map .char := by
  obtain ⟨items, hitems, hitems'⟩ := readItems_append_outside h cs.length (4 * cs.length + 4)
    (4 * (cs.length + tail.length) + 4) false cs (by omega) (by omega)
  rw [ofPattern, ofPattern, hitems, List.length_append, hitems']
  rfl

end Inert

lemma textsAll_append_chars (items : List Braced) (tail : List Char) :
    textsAll (items ++ tail.map .char) = (textsAll items).map (· ++ tail) := by
  induction items with
  | nil =>
    induction tail with
    | nil => simp [textsAll]
    | cons c tail ih =>
      rw [List.nil_append, textsAll] at ih ⊢
      rw [List.map_cons, textsAll, ih]
      simp [texts]
  | cons item items ih =>
    rw [List.cons_append, textsAll, textsAll, ih, List.map_flatMap]
    simp [Function.comp_def]

end Braced

/-- The patterns that the braces of a pattern stand for. -/
def unbraced (cs : List Char) : List (List Char) := Braced.textsAll (Braced.ofPattern cs)

lemma unbraced_append {tail : List Char} (h : IsInert tail) (cs : List Char) :
    unbraced (cs ++ tail) = (unbraced cs).map (· ++ tail) := by
  rw [unbraced, Braced.ofPattern_append h, Braced.textsAll_append_chars]
  rfl

end Letterhead.Pattern.Glob
