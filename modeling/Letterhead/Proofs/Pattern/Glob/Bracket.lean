import Mathlib.Data.List.TakeWhile
import Letterhead.Pattern.Glob.Bracket
import Letterhead.Proofs.Pattern.Glob.Brace

/-!
What stands behind a pattern, from a slash on, does not change how its sets are read.

A slash cannot stand in a set. So a bracket that opens no set in a pattern opens none with a slash
behind the pattern either, and a set that is closed leaves what stands behind it.
-/

namespace Letterhead.Pattern.Glob.BracketPart

open Braced (PassesTail LeavesEnd withTail head?_append_inert_ne)

variable {cs tail rest : List Char}

/-! ### Classes with a name -/

lemma readPosix_of_head?_ne (h : cs.head? ≠ some ':') : readPosix cs = none := by
  rw [readPosix.eq_def]
  split
  · exact absurd rfl h
  · rfl

lemma readPosix_of_not_mem (h : ':' ∉ cs) : readPosix (':' :: cs) = none := by
  have hdrop : cs.dropWhile (· != ':') = [] := by
    rw [List.dropWhile_eq_nil_iff]
    intro c hc
    simpa using fun heq : c = ':' => h (heq ▸ hc)
  rw [readPosix, hdrop]

lemma readPosix_cons {name : List Char} (h : ':' ∉ name) (cs : List Char) :
    readPosix (':' :: (name ++ ':' :: cs)) =
      if cs.head? = some ']' then
        (posixClasses.lookup (String.ofList name)).map fun members => (members, cs.tail)
      else none := by
  have hname : ∀ c ∈ name, (c != ':') = true := by
    intro c hc
    simpa using fun heq : c = ':' => h (heq ▸ hc)
  have hcolon : (':' != ':') = false := rfl
  rw [readPosix, List.takeWhile_append_of_pos hname, List.dropWhile_append_of_pos hname,
    List.takeWhile_cons, List.dropWhile_cons, hcolon, if_neg Bool.false_ne_true,
    if_neg Bool.false_ne_true, List.append_nil]
  by_cases hclose : cs.head? = some ']'
  · obtain ⟨rest, rfl⟩ := List.head?_eq_some_iff.mp hclose
    rfl
  · rw [if_neg hclose]
    split
    · next heq => exact absurd (by rw [(List.cons.inj heq).2]; rfl) hclose
    · rfl

lemma not_mem_of_isInert (h : IsInert tail) : ':' ∉ tail := by
  intro hmem
  rcases h ':' hmem with heq | heq <;> simp at heq

lemma passesTail_readPosix : PassesTail readPosix := by
  intro cs tail h
  by_cases hopen : cs.head? = some ':'
  · obtain ⟨cs, rfl⟩ := List.head?_eq_some_iff.mp hopen
    by_cases hcolon : ':' ∈ cs
    · obtain ⟨name, rest, rfl, hname⟩ := List.eq_append_cons_of_mem hcolon
      rw [List.cons_append, List.append_assoc, List.cons_append, readPosix_cons hname,
        readPosix_cons hname]
      by_cases hclose : rest.head? = some ']'
      · obtain ⟨rest, rfl⟩ := List.head?_eq_some_iff.mp hclose
        simp [Function.comp_def]
      · rw [if_neg hclose, if_neg (head?_append_inert_ne h (by decide) (by decide) hclose)]
        rfl
    · have hcolon' : ':' ∉ cs ++ tail := by simp [hcolon, not_mem_of_isInert h]
      rw [List.cons_append, readPosix_of_not_mem hcolon, readPosix_of_not_mem hcolon']
      rfl
  · rw [readPosix_of_head?_ne hopen,
      readPosix_of_head?_ne (head?_append_inert_ne h (by decide) (by decide) hopen)]
    rfl

lemma leavesEnd_readPosix : LeavesEnd readPosix := by
  intro cs members rest h
  by_cases hopen : cs.head? = some ':'
  · obtain ⟨cs, rfl⟩ := List.head?_eq_some_iff.mp hopen
    by_cases hcolon : ':' ∈ cs
    · obtain ⟨name, cs, rfl, hname⟩ := List.eq_append_cons_of_mem hcolon
      rw [readPosix_cons hname] at h
      split at h
      · obtain ⟨members, -, heq⟩ := Option.map_eq_some_iff.mp h
        obtain ⟨-, rfl⟩ := Prod.mk.inj heq
        exact (List.tail_suffix cs).trans ⟨':' :: (name ++ [':']), by simp⟩
      · cases h
    · rw [readPosix_of_not_mem hcolon] at h
      cases h
  · rw [readPosix_of_head?_ne hopen] at h
    cases h

/-! ### Parts -/

variable {fuel : Nat} {c : Char}

namespace State

/-- The state behind a hyphen, with so much left of the pattern. -/
def behindHyphen (s : State) (left : Nat) : State :=
  if s.afterPosix then { s with found := .fixed '-' :: s.found, afterPosix := false }
  else if s.hyphen.all (left + 3 ≤ ·) then
    { s with found := .bare '-' :: s.found, hyphen := some left, inRange := true }
  else if s.inRange then { s with found := (endRange s.found (.fixed '-')).2, inRange := false }
  else { s with found := .fixed '-' :: s.found }

/-- The state behind a class with a name. -/
def behindClass (s : State) (members : List Member) : State :=
  let found := match s.inRange, s.found with
    | true, _ :: found => .fixed '-' :: found
    | _, found => found
  { s with found := .named members :: found, afterPosix := true }

/-- The state behind another character. -/
def behindChar (s : State) (c : Char) : State :=
  let found := if s.inRange then (endRange s.found (.bare c)).2 else .bare c :: s.found
  { s with found, inRange := false, afterPosix := false }

/-- The state with so much more of the pattern behind its hyphen. -/
def shift (n : Nat) (s : State) : State := { s with hyphen := s.hyphen.map (· + n) }

lemma shift_of_hyphen_eq_none {s : State} (h : s.hyphen = none) (n : Nat) : s.shift n = s := by
  obtain ⟨found, hyphen, inRange, afterPosix⟩ := s
  obtain rfl : hyphen = none := h
  rfl

lemma shift_behindHyphen (s : State) (n left : Nat) :
    (s.shift n).behindHyphen (left + n) = (s.behindHyphen left).shift n := by
  have hall : (s.shift n).hyphen.all (left + n + 3 ≤ ·) = s.hyphen.all (left + 3 ≤ ·) := by
    rcases hhyphen : s.hyphen with _ | place
    · simp [shift, hhyphen]
    · simp only [shift, hhyphen, Option.map_some, Option.all_some, decide_eq_decide]
      omega
  rw [behindHyphen, behindHyphen, hall, apply_ite (shift n), apply_ite (shift n),
    apply_ite (shift n)]
  rfl

end State

lemma readParts_close (s : State) :
    readParts s (fuel + 1) (']' :: rest) = some (s.found.reverse, rest) := by
  rw [readParts, if_pos rfl]

lemma readParts_slash (s : State) : readParts s (fuel + 1) ('/' :: rest) = none := by
  rw [readParts, if_neg (by decide), if_neg (by decide), if_pos rfl]

lemma readParts_hyphen (s : State) :
    readParts s (fuel + 1) ('-' :: rest) = readParts (s.behindHyphen rest.length) fuel rest := by
  rw [readParts, if_neg (by decide), if_pos rfl, State.behindHyphen]
  simp only [apply_ite fun s => readParts s fuel rest]

/-- The class that a bracket opens within a set. -/
def posix? (c : Char) (rest : List Char) : Option (List Member × List Char) :=
  if c = '[' then readPosix rest else none

lemma readParts_part (s : State) (hclose : c ≠ ']') (hhyphen : c ≠ '-') (hslash : c ≠ '/') :
    readParts s (fuel + 1) (c :: rest) =
      match posix? c rest with
      | some (members, rest) => readParts (s.behindClass members) fuel rest
      | none => readParts (s.behindChar c) fuel rest := by
  rw [readParts, if_neg hclose, if_neg hhyphen, if_neg hslash]
  rfl

lemma posix?_append (h : IsInert tail) (c : Char) (cs : List Char) :
    posix? c (cs ++ tail) = (posix? c cs).map (withTail tail) := by
  unfold posix?
  split
  · exact passesTail_readPosix cs tail h
  · rfl

lemma suffix_of_posix? {members : List Member} (h : posix? c cs = some (members, rest)) :
    rest <:+ cs := by
  unfold posix? at h
  split at h
  · exact leavesEnd_readPosix _ _ _ h
  · cases h

lemma leavesEnd_readParts (fuel : Nat) : ∀ s, LeavesEnd (readParts s fuel) := by
  induction fuel with
  | zero =>
    intro s cs parts rest h
    rw [readParts] at h
    cases h
  | succ fuel ih =>
    intro s cs parts rest h
    rcases cs with _ | ⟨c, cs⟩
    · rw [readParts] at h
      cases h
    by_cases hclose : c = ']'
    · rw [hclose, readParts_close] at h
      obtain ⟨-, rfl⟩ := Prod.mk.inj (Option.some.inj h)
      exact List.suffix_cons _ _
    by_cases hhyphen : c = '-'
    · rw [hhyphen, readParts_hyphen] at h
      exact (ih _ _ _ _ h).trans (List.suffix_cons _ _)
    by_cases hslash : c = '/'
    · rw [hslash, readParts_slash] at h
      cases h
    rw [readParts_part s hclose hhyphen hslash] at h
    split at h
    · next hposix =>
      exact ((ih _ _ _ _ h).trans (suffix_of_posix? hposix)).trans (List.suffix_cons _ _)
    · exact (ih _ _ _ _ h).trans (List.suffix_cons _ _)

lemma readParts_append (h : IsInert ('/' :: tail)) (fuel : Nat) : ∀ fuel' s cs,
    cs.length + 1 ≤ fuel → cs.length + tail.length + 1 ≤ fuel' →
    readParts (s.shift ('/' :: tail).length) fuel' (cs ++ '/' :: tail) =
      (readParts s fuel cs).map (withTail ('/' :: tail)) := by
  induction fuel with
  | zero => omega
  | succ fuel ih =>
    intro fuel' s cs hfuel hfuel'
    obtain ⟨fuel', rfl⟩ := Nat.exists_eq_succ_of_ne_zero (by omega : fuel' ≠ 0)
    rw [Nat.succ_eq_add_one]
    rcases cs with _ | ⟨c, cs⟩
    · rw [List.nil_append, readParts_slash, readParts]
      rfl
    rw [List.length_cons] at hfuel hfuel'
    rw [List.cons_append]
    by_cases hclose : c = ']'
    · rw [hclose, readParts_close, readParts_close]
      rfl
    by_cases hhyphen : c = '-'
    · rw [hhyphen, readParts_hyphen, readParts_hyphen, List.length_append, State.shift_behindHyphen]
      exact ih fuel' _ cs (by omega) (by omega)
    by_cases hslash : c = '/'
    · rw [hslash, readParts_slash, readParts_slash]
      rfl
    rw [readParts_part _ hclose hhyphen hslash, readParts_part _ hclose hhyphen hslash,
      posix?_append h]
    rcases hposix : posix? c cs with _ | ⟨members, rest⟩
    · exact ih fuel' (s.behindChar c) cs (by omega) (by omega)
    · have hle := (suffix_of_posix? hposix).length_le
      exact ih fuel' (s.behindClass members) rest (by omega) (by omega)

/-! ### Sets -/

/-- The mark of negation at the front of a set, and what stands behind it. -/
def readSign : List Char → List BracketPart × List Char
  | '!' :: rest => ([.bare '^'], rest)
  | '^' :: rest => ([.bare '^'], rest)
  | cs => ([], cs)

lemma readSet_eq (cs : List Char) :
    readSet cs =
      let start := readFirst (readSign cs).1 (readSign cs).2
      (readParts start.1 (start.2.length + 1) start.2).map fun r => (toSet r.1, r.2) := by
  have hmap (parts? : Option (List BracketPart × List Char)) :
      (do let r ← parts?; return (toSet r.1, r.2)) =
        parts?.map fun r => (toSet r.1, r.2) := by
    cases parts? <;> rfl
  exact hmap (readParts (readFirst (readSign cs).1 (readSign cs).2).1
    ((readFirst (readSign cs).1 (readSign cs).2).2.length + 1)
    (readFirst (readSign cs).1 (readSign cs).2).2)

lemma readSign_other (h : cs.head? ≠ some '!') (h' : cs.head? ≠ some '^') :
    readSign cs = ([], cs) := by
  unfold readSign
  split
  · exact absurd rfl h
  · exact absurd rfl h'
  · rfl

lemma readSign_append (h : IsInert tail) (cs : List Char) :
    readSign (cs ++ tail) = withTail tail (readSign cs) := by
  by_cases hbang : cs.head? = some '!'
  · obtain ⟨rest, rfl⟩ := List.head?_eq_some_iff.mp hbang
    rfl
  by_cases hcaret : cs.head? = some '^'
  · obtain ⟨rest, rfl⟩ := List.head?_eq_some_iff.mp hcaret
    rfl
  rw [readSign_other hbang hcaret,
    readSign_other (head?_append_inert_ne h (by decide) (by decide) hbang)
      (head?_append_inert_ne h (by decide) (by decide) hcaret)]
  rfl

lemma suffix_readSign (cs : List Char) : (readSign cs).2 <:+ cs := by
  unfold readSign
  split
  · exact List.suffix_cons _ _
  · exact List.suffix_cons _ _
  · exact List.suffix_rfl

lemma readFirst_other {negation : List BracketPart} (hopen : cs.head? ≠ some '[')
    (hhyphen : cs.head? ≠ some '-') (hclose : cs.head? ≠ some ']') :
    readFirst negation cs = (⟨negation, none, false, false⟩, cs) := by
  unfold readFirst
  split
  · exact absurd rfl hopen
  · exact absurd rfl hhyphen
  · exact absurd rfl hclose
  · rfl

lemma readFirst_append (h : IsInert tail) (negation : List BracketPart) (cs : List Char) :
    readFirst negation (cs ++ tail) = withTail tail (readFirst negation cs) := by
  by_cases hopen : cs.head? = some '['
  · obtain ⟨rest, rfl⟩ := List.head?_eq_some_iff.mp hopen
    rw [List.cons_append, readFirst, readFirst, passesTail_readPosix rest tail h]
    cases readPosix rest <;> rfl
  by_cases hhyphen : cs.head? = some '-'
  · obtain ⟨rest, rfl⟩ := List.head?_eq_some_iff.mp hhyphen
    rfl
  by_cases hclose : cs.head? = some ']'
  · obtain ⟨rest, rfl⟩ := List.head?_eq_some_iff.mp hclose
    rfl
  rw [readFirst_other hopen hhyphen hclose,
    readFirst_other (head?_append_inert_ne h (by decide) (by decide) hopen)
      (head?_append_inert_ne h (by decide) (by decide) hhyphen)
      (head?_append_inert_ne h (by decide) (by decide) hclose)]
  rfl

lemma readFirst_spec (negation : List BracketPart) (cs : List Char) :
    (readFirst negation cs).1.hyphen = none ∧ (readFirst negation cs).2 <:+ cs := by
  unfold readFirst
  split
  · split
    · next hposix => exact ⟨rfl, (leavesEnd_readPosix _ _ _ hposix).trans (List.suffix_cons _ _)⟩
    · exact ⟨rfl, List.suffix_cons _ _⟩
  · exact ⟨rfl, List.suffix_cons _ _⟩
  · exact ⟨rfl, List.suffix_cons _ _⟩
  · exact ⟨rfl, List.suffix_rfl⟩

lemma leavesEnd_readSet : LeavesEnd readSet := by
  intro cs set rest h
  rw [readSet_eq] at h
  obtain ⟨⟨parts, left⟩, hparts, heq⟩ := Option.map_eq_some_iff.mp h
  obtain ⟨-, rfl⟩ := Prod.mk.inj heq
  exact ((leavesEnd_readParts _ _ _ _ _ hparts).trans (readFirst_spec _ _).2).trans
    (suffix_readSign cs)

lemma readSet_append (h : IsInert ('/' :: tail)) (cs : List Char) :
    readSet (cs ++ '/' :: tail) = (readSet cs).map (withTail ('/' :: tail)) := by
  rw [readSet_eq, readSet_eq, readSign_append h]
  dsimp only [withTail]
  rw [readFirst_append h]
  obtain ⟨hhyphen, -⟩ := readFirst_spec (readSign cs).1 (readSign cs).2
  generalize readFirst (readSign cs).1 (readSign cs).2 = start at hhyphen ⊢
  dsimp only [withTail]
  rw [← State.shift_of_hyphen_eq_none hhyphen ('/' :: tail).length,
    readParts_append h (start.2.length + 1) _ _ _ le_rfl
      (by simp only [List.length_append, List.length_cons]; omega),
    State.shift_of_hyphen_eq_none hhyphen, Option.map_map, Option.map_map]
  rfl

end Letterhead.Pattern.Glob.BracketPart
