import Mathlib.Data.List.TakeWhile
import Letterhead.Pattern.Regex.Search

/-!
Reading a pattern that was put together from parts.

Each part is told by what it adds to the items that were read before it, whatever follows, and
parts in a row add their items in a row. A text whose special characters are escaped is a pattern
for its characters.
-/

namespace Letterhead.Pattern

/-- Characters that may stand for more than themselves in a pattern. -/
def isSpecial (c : Char) : Bool :=
  "()[]\x7b\x7d?*+-|^$\\.&~# \t\n\r\x0b\x0c".toList.contains c

/-- A pattern for the characters of a text. -/
def escapeText (cs : List Char) : List Char :=
  cs.flatMap fun c => if isSpecial c then ['\\', c] else [c]

namespace Parse

/-! ### Single steps -/

variable {s : Reader} {t : Token} {ts : List Token} {c : Char}

lemma ok_bind {α β : Type} (a : α) (f : α → Except Invalid β) : Except.ok a >>= f = f a := rfl

lemma run_pure {α : Type} (a : α) (s : Reader) : (pure a : Parse α).run s = .ok (a, s) := rfl

lemma run_get (s : Reader) : (get : Parse Reader).run s = .ok (s, s) := rfl

lemma run_peek (s : Reader) : peek.run s = .ok (s.rest.head?, s) := rfl

lemma run_accept_false (h : ∀ t ∈ s.rest.head?, t.is c = false) :
    (accept c).run s = .ok (false, s) := by
  rw [accept, StateT.run_bind, run_peek, ok_bind]
  cases hr : s.rest.head? with
  | none => rfl
  | some t =>
    have ht := h t hr
    simp only [ht]
    rfl

/-! Steps that take a token, where none is cut off. -/

lemma cutOff_with (hs : s.cutOff = false) (ts : List Token) :
    ({ s with rest := ts } : Reader).cutOff = false := hs

section Whole

variable (hs : s.cutOff = false)

include hs

lemma run_goOn (ts : List Token) : (goOn ts).run s = .ok ((), { s with rest := ts }) := by
  rw [goOn, StateT.run_bind, run_get, ok_bind]
  dsimp only
  rw [hs, Bool.and_false, if_neg Bool.false_ne_true]
  rfl

lemma run_next (h : s.rest = t :: ts) : next.run s = .ok (some t, { s with rest := ts }) := by
  rw [next, StateT.run_bind, run_get, ok_bind, h]
  dsimp only
  rw [StateT.run_bind, run_goOn hs, ok_bind]
  rfl

lemma run_need (h : s.rest = t :: ts) : need.run s = .ok (t, { s with rest := ts }) := by
  rw [need, StateT.run_bind, run_next hs h, ok_bind]
  rfl

lemma run_accept_true (h : s.rest = t :: ts) (hc : t.is c = true) :
    (accept c).run s = .ok (true, { s with rest := ts }) := by
  rw [accept, StateT.run_bind, run_peek, ok_bind, h, List.head?_cons]
  simp only [hc, if_true]
  rw [StateT.run_bind, run_next hs h, ok_bind]
  rfl

lemma run_expect (h : s.rest = t :: ts) (hc : t.is c = true) :
    (expect c).run s = .ok ((), { s with rest := ts }) := by
  rw [expect, StateT.run_bind, run_accept_true hs h hc, ok_bind]
  rfl

end Whole

/-- No mark stands here that says how an item is repeated. -/
def Calm (toks : List Token) : Prop := ∀ t ∈ toks.head?, t.is '?' = false ∧ t.is '+' = false

lemma run_repeated {item : Regex} (ha : item.isAnchor = false) (hl : item.isLoop = false)
    (hs : Calm s.rest) (min : Nat) (max : Option Nat) (found : List Regex) :
    (repeated {} min max (item :: found)).run s = .ok (.loop item min max .most :: found, s) := by
  have hfewest := run_accept_false fun t ht => (hs t ht).1
  have hall := run_accept_false fun t ht => (hs t ht).2
  simp [repeated, ha, hl, StateT.run_bind, hfewest, hall, ok_bind]
  rfl

lemma run_bounds?_four (hs : s.cutOff = false)
    (h : s.rest = ⟨false, '4'⟩ :: ⟨false, '\x7d'⟩ :: ts) :
    bounds?.run s = .ok (some (4, some 4), { s with rest := ts }) := by
  have hdigits : digitRun.run s = .ok (['4'], { s with rest := ⟨false, '\x7d'⟩ :: ts }) := by
    rw [digitRun, StateT.run_bind, run_get, ok_bind, h, List.length_cons, chars, StateT.run_bind,
      run_peek, ok_bind, h]
    show (do let _ ← next; return '4' :: (← chars Char.isDigit _)).run s = _
    rw [StateT.run_bind, run_next hs h, ok_bind]
    rfl
  have hcomma : (accept ',').run { s with rest := ⟨false, '\x7d'⟩ :: ts } =
      .ok (false, { s with rest := ⟨false, '\x7d'⟩ :: ts }) :=
    run_accept_false (by rintro t ⟨⟩; decide)
  have hclose : (accept '\x7d').run { s with rest := ⟨false, '\x7d'⟩ :: ts } =
      .ok (true, { s with rest := ts }) :=
    run_accept_true hs rfl rfl
  have hcount : ∀ s, (repeatCount ['4']).run s = .ok (some 4, s) := fun s => rfl
  have hopen : ¬ (s.rest.head?).any (·.is '\x7d') = true := by
    rw [h, List.head?_cons, Option.any_some]
    decide
  rw [bounds?, StateT.run_bind, run_get, ok_bind, if_neg hopen, StateT.run_bind, hdigits, ok_bind,
    StateT.run_bind]
  dsimp only
  rw [hcomma, ok_bind]
  dsimp only
  rw [if_neg (by simp), StateT.run_bind, run_pure, ok_bind, StateT.run_bind]
  dsimp only
  rw [hclose, ok_bind]
  dsimp only
  rw [if_pos rfl, StateT.run_bind, hcount, ok_bind]
  dsimp only
  rw [StateT.run_bind, hcount, ok_bind]
  rfl

/-! ### Items -/

/-- Items in a row, as one expression. -/
def inRow (items : List Regex) : Regex := items.foldr .seq .empty

lemma run_sequence_end (first : Bool) (found : List Regex) (fuel : Nat)
    (h : ∀ t ∈ s.rest.head?, t.isIn "|)" = true) :
    (sequence {} first found (fuel + 1)).run s = .ok (inRow found.reverse, s) := by
  rw [sequence, StateT.run_bind, run_peek, ok_bind, inRow, List.foldr_reverse]
  cases hr : s.rest.head? with
  | none => rfl
  | some t =>
    have ht := h t hr
    simp only [ht, if_true]
    rfl

lemma run_sequence_escaped (hs : s.cutOff = false) (first : Bool) (found : List Regex) (fuel : Nat)
    (h : s.rest = ⟨true, c⟩ :: ts) {r : Regex} (hr : ∀ s, (escape {} c).run s = .ok (r, s)) :
    (sequence {} first found (fuel + 1)).run s =
      (sequence {} first (r :: found) fuel).run { s with rest := ts } := by
  rw [sequence, StateT.run_bind, run_peek, ok_bind, h, List.head?_cons]
  dsimp only
  rw [if_neg (by simp [Token.isIn]), StateT.run_bind, run_next hs h, ok_bind]
  show (do sequence {} first ((← escape {} c) :: found) fuel).run { s with rest := ts } = _
  rw [StateT.run_bind, hr, ok_bind]

lemma run_sequence_plain (hs : s.cutOff = false) (first : Bool) (found : List Regex) (fuel : Nat)
    (h : s.rest = ⟨false, c⟩ :: ts) (hc : isSpecial c = false) :
    (sequence {} first found (fuel + 1)).run s =
      (sequence {} first (.set (.single .exact c) :: found) fuel).run { s with rest := ts } := by
  have hne : ∀ d, isSpecial d = true → c ≠ d := by
    rintro d hd rfl
    rw [hc] at hd
    cases hd
  have hin : (⟨false, c⟩ : Token).isIn "|)" = false := by
    have hbar : c ≠ '|' := hne _ (by decide)
    have hclose : c ≠ ')' := hne _ (by decide)
    simp [Token.isIn, hbar, hclose]
  rw [sequence, StateT.run_bind, run_peek, ok_bind, h, List.head?_cons]
  dsimp only
  rw [if_neg (by simp [hin]), StateT.run_bind, run_next hs h, ok_bind]
  dsimp only
  rw [if_neg (by simp), if_neg (by simp), if_neg (by simp)]
  split
  case h_10 => rfl
  all_goals exact absurd rfl (hne _ (by decide))

lemma run_sequence_mark (hs : s.cutOff = false) (first : Bool) {item : Regex} {max : Option Nat}
    (found : List Regex)
    (fuel : Nat) (hc : c = '*' ∧ max = none ∨ c = '?' ∧ max = some 1)
    (h : s.rest = ⟨false, c⟩ :: ts) (hcalm : Calm ts) (ha : item.isAnchor = false)
    (hl : item.isLoop = false) :
    (sequence {} first (item :: found) (fuel + 1)).run s =
      (sequence {} first (.loop item 0 max .most :: found) fuel).run { s with rest := ts } := by
  have hstep : (sequence {} first (item :: found) (fuel + 1)).run s =
      (do sequence {} first (← repeated {} 0 max (item :: found)) fuel).run
        { s with rest := ts } := by
    rcases hc with ⟨rfl, rfl⟩ | ⟨rfl, rfl⟩ <;>
      (rw [sequence, StateT.run_bind, run_peek, ok_bind, h, List.head?_cons]
       dsimp only
       rw [if_neg (by decide), StateT.run_bind, run_next hs h, ok_bind]
       rfl)
  rw [hstep, StateT.run_bind, run_repeated ha hl hcalm, ok_bind]

lemma run_sequence_four (hs : s.cutOff = false) (first : Bool) {item : Regex}
    (found : List Regex) (fuel : Nat)
    (h : s.rest = ⟨false, '\x7b'⟩ :: ⟨false, '4'⟩ :: ⟨false, '\x7d'⟩ :: ts) (hcalm : Calm ts)
    (ha : item.isAnchor = false) (hl : item.isLoop = false) :
    (sequence {} first (item :: found) (fuel + 1)).run s =
      (sequence {} first (.loop item 4 (some 4) .most :: found) fuel).run
        { s with rest := ts } := by
  rw [sequence, StateT.run_bind, run_peek, ok_bind, h, List.head?_cons]
  dsimp only
  rw [if_neg (by decide), StateT.run_bind, run_next hs h, ok_bind]
  simp only [Bool.false_and, Bool.false_eq_true, ↓reduceIte]
  rw [StateT.run_bind, run_bounds?_four (cutOff_with hs _) rfl, ok_bind]
  dsimp only
  rw [StateT.run_bind, run_repeated ha hl hcalm, ok_bind]

lemma run_sequence_group (hs : s.cutOff = false) (first : Bool) (found : List Regex) (fuel : Nat)
    {r : Regex}
    {ts' : List Token} (h : s.rest = ⟨false, '('⟩ :: ⟨false, '?'⟩ :: ⟨false, ':'⟩ :: ts)
    (hbody : (sequence {} false [] fuel).run { s with rest := ts } =
      .ok (r, { s with rest := ⟨false, ')'⟩ :: ts' })) :
    (sequence {} first found (fuel + 3)).run s =
      (sequence {} first (.group r :: found) (fuel + 1)).run { s with rest := ts' } := by
  have hbar : (accept '|').run { s with rest := ⟨false, ')'⟩ :: ts' } =
      .ok (false, { s with rest := ⟨false, ')'⟩ :: ts' }) :=
    run_accept_false (by rintro t ⟨⟩; decide)
  have halternatives : (alternatives {} false (fuel + 1)).run { s with rest := ts } =
      .ok (r, { s with rest := ⟨false, ')'⟩ :: ts' }) := by
    rw [alternatives, StateT.run_bind, hbody, ok_bind]
    dsimp only
    rw [StateT.run_bind, hbar, ok_bind]
    rfl
  have hgroup : (extension {} first found (fuel + 2)).run { s with rest := ⟨false, ':'⟩ :: ts } =
      (sequence {} first (.group r :: found) (fuel + 1)).run { s with rest := ts' } := by
    rw [extension, StateT.run_bind, run_need (cutOff_with hs _) rfl, ok_bind]
    show (do
      let body ← alternatives {} false (fuel + 1)
      expect ')'
      sequence {} first (.group body :: found) (fuel + 1)).run _ = _
    rw [StateT.run_bind, halternatives, ok_bind]
    dsimp only
    rw [StateT.run_bind, run_expect (cutOff_with hs _) rfl rfl, ok_bind]
  rw [sequence, StateT.run_bind, run_peek, ok_bind, h, List.head?_cons]
  dsimp only
  rw [if_neg (by decide), StateT.run_bind, run_next hs h, ok_bind]
  show (do
    if ← accept '?' then extension {} first found (fuel + 2)
    else sequence {} first ((← capturing {} none (fuel + 2)) :: found) (fuel + 2)).run _ = _
  rw [StateT.run_bind, run_accept_true (cutOff_with hs _) rfl rfl, ok_bind]
  dsimp only
  rw [if_pos rfl, hgroup]

lemma run_escape_special (hc : isSpecial c = true) (s : Reader) :
    (escape {} c).run s = .ok (.set (.single .exact c), s) := by
  have hmem : c ∈ "()[]\x7b\x7d?*+-|^$\\.&~# \t\n\r\x0b\x0c".toList := by
    simpa [isSpecial] using hc
  simp only [String.reduceToList, List.mem_cons, List.not_mem_nil, or_false] at hmem
  rcases hmem with rfl | rfl | rfl | rfl | rfl | rfl | rfl | rfl | rfl | rfl | rfl | rfl | rfl |
    rfl | rfl | rfl | rfl | rfl | rfl | rfl | rfl | rfl | rfl | rfl | rfl <;> rfl

/-! ### Parts of a pattern -/

/-- The part of a pattern is cut into these tokens and adds these items, whatever follows. The
bound on the fuel is one that the rest of the pattern keeps. -/
structure Reads (cs : List Char) (toks : List Token) (items : List Regex) : Prop where
  cut : ∀ rest, Token.ofChars (cs ++ rest) = (Token.ofChars rest).map (toks ++ ·) id
  calm : ∀ rest, Calm rest → Calm (toks ++ rest)
  run : ∀ (s : Reader) (first : Bool) (found : List Regex) (rest : List Token) (fuel : Nat),
    s.cutOff = false → s.rest = toks ++ rest → Calm rest → 2 * s.rest.length + 4 ≤ fuel →
      ∃ fuel', 2 * rest.length + 4 ≤ fuel' ∧ (sequence {} first found fuel).run s =
        (sequence {} first (items.reverse ++ found) fuel').run { s with rest := rest }

lemma Reads.nil : Reads [] [] [] where
  cut rest := rfl
  calm rest h := h
  run s first found rest fuel _ hrest _ hfuel := by
    obtain rfl : s.rest = rest := hrest
    exact ⟨fuel, hfuel, rfl⟩

lemma Reads.append {cs cs' : List Char} {toks toks' : List Token} {items items' : List Regex}
    (h : Reads cs toks items) (h' : Reads cs' toks' items') :
    Reads (cs ++ cs') (toks ++ toks') (items ++ items') where
  cut rest := by
    rw [List.append_assoc, h.cut, h'.cut]
    exact congrArg (Prod.mk · _) (List.append_assoc toks toks' _).symm
  calm rest hr := by
    rw [List.append_assoc]
    exact h.calm _ (h'.calm _ hr)
  run s first found rest fuel hs hrest hr hfuel := by
    rw [List.append_assoc] at hrest
    obtain ⟨fuel₁, hfuel₁, h₁⟩ := h.run s first found _ fuel hs hrest (h'.calm rest hr) hfuel
    obtain ⟨fuel₂, hfuel₂, h₂⟩ := h'.run { s with rest := toks' ++ rest } first
      (items.reverse ++ found) rest fuel₁ hs rfl hr hfuel₁
    exact ⟨fuel₂, hfuel₂, by rw [h₁, h₂, List.reverse_append, List.append_assoc]⟩

lemma ofChars_escaped (c : Char) (rest : List Char) :
    Token.ofChars ('\\' :: c :: rest) = (Token.ofChars rest).map (⟨true, c⟩ :: ·) id :=
  rfl

lemma ofChars_plain {c : Char} (hc : c ≠ '\\') (rest : List Char) :
    Token.ofChars (c :: rest) = (Token.ofChars rest).map (⟨false, c⟩ :: ·) id := by
  rw [Token.ofChars]
  · rintro rfl
    exact absurd rfl hc
  · rintro d ds rfl
    exact absurd rfl hc

lemma calm_cons (t : Token) (ts : List Token) (h : t.is '?' = false ∧ t.is '+' = false) :
    Calm (t :: ts) := by
  rintro t' ⟨⟩
  exact h

lemma reads_char (c : Char) :
    Reads (if isSpecial c then ['\\', c] else [c]) [⟨isSpecial c, c⟩]
      [.set (.single .exact c)] := by
  cases hc : isSpecial c with
  | true =>
    refine ⟨fun rest => rfl, fun rest _ => calm_cons _ _ ⟨rfl, rfl⟩, ?_⟩
    intro s first found rest fuel hs hrest _ hfuel
    obtain ⟨fuel, rfl⟩ : ∃ n, fuel = n + 1 := ⟨fuel - 1, by omega⟩
    rw [hrest, List.length_append, List.length_singleton] at hfuel
    exact ⟨fuel, by omega, run_sequence_escaped hs first found fuel hrest (run_escape_special hc)⟩
  | false =>
    have hne : ∀ d, isSpecial d = true → c ≠ d := by
      rintro d hd rfl
      rw [hc] at hd
      cases hd
    refine ⟨fun rest => ?_, fun rest _ => calm_cons _ _ ?_, ?_⟩
    · exact ofChars_plain (hne _ (by decide)) rest
    · have hoption : c ≠ '?' := hne _ (by decide)
      have hplus : c ≠ '+' := hne _ (by decide)
      simp [Token.is, hoption, hplus]
    · intro s first found rest fuel hs hrest _ hfuel
      obtain ⟨fuel, rfl⟩ : ∃ n, fuel = n + 1 := ⟨fuel - 1, by omega⟩
      rw [hrest, List.length_append, List.length_singleton] at hfuel
      exact ⟨fuel, by omega, run_sequence_plain hs first found fuel hrest hc⟩

lemma reads_escapeText (cs : List Char) :
    Reads (escapeText cs) (cs.map fun c => ⟨isSpecial c, c⟩)
      (cs.map fun c => .set (.single .exact (CodePoint.ofChar c))) := by
  induction cs with
  | nil => exact .nil
  | cons c cs ih => exact (reads_char c).append ih

/-- The set of the characters of a class. -/
def classSet (k : CharClass) : CharSet := ⟨false, .exact, [.named k false false]⟩

lemma reads_fourDigits :
    Reads ['\\', 'd', '\x7b', '4', '\x7d']
      [⟨true, 'd'⟩, ⟨false, '\x7b'⟩, ⟨false, '4'⟩, ⟨false, '\x7d'⟩]
      [.loop (.set (classSet .digit)) 4 (some 4) .most] where
  cut rest := by
    simp only [List.cons_append, List.nil_append, ofChars_escaped]
    rw [ofChars_plain (by decide), ofChars_plain (by decide), ofChars_plain (by decide)]
    rfl
  calm rest _ := calm_cons _ _ (by decide)
  run s first found rest fuel hs hrest hr hfuel := by
    obtain ⟨fuel, rfl⟩ : ∃ n, fuel = n + 2 := ⟨fuel - 2, by omega⟩
    rw [hrest, List.length_append] at hfuel
    simp only [List.length_cons] at hfuel
    simp only [List.cons_append, List.nil_append] at hrest
    refine ⟨fuel, by omega, ?_⟩
    rw [run_sequence_escaped (r := .set (classSet .digit)) hs first found (fuel + 1) hrest
        fun s => rfl,
      run_sequence_four (cutOff_with hs _) first found fuel rfl hr rfl rfl]
    rfl

lemma reads_blanks :
    Reads ['\\', 's', '*'] [⟨true, 's'⟩, ⟨false, '*'⟩]
      [.loop (.set (classSet .blank)) 0 none .most] where
  cut rest := by
    simp only [List.cons_append, List.nil_append, ofChars_escaped]
    rw [ofChars_plain (by decide)]
    rfl
  calm rest _ := calm_cons _ _ (by decide)
  run s first found rest fuel hs hrest hr hfuel := by
    obtain ⟨fuel, rfl⟩ : ∃ n, fuel = n + 2 := ⟨fuel - 2, by omega⟩
    rw [hrest, List.length_append] at hfuel
    simp only [List.length_cons] at hfuel
    simp only [List.cons_append, List.nil_append] at hrest
    refine ⟨fuel, by omega, ?_⟩
    rw [run_sequence_escaped (r := .set (classSet .blank)) hs first found (fuel + 1) hrest
        fun s => rfl,
      run_sequence_mark (cutOff_with hs _) first found fuel (.inl ⟨rfl, rfl⟩) rfl hr rfl rfl]
    rfl

lemma Reads.optional {cs : List Char} {toks : List Token} {items : List Regex}
    (h : Reads cs toks items) :
    Reads (['(', '?', ':'] ++ cs ++ [')', '?'])
      ([⟨false, '('⟩, ⟨false, '?'⟩, ⟨false, ':'⟩] ++ toks ++ [⟨false, ')'⟩, ⟨false, '?'⟩])
      [.loop (.group (inRow items)) 0 (some 1) .most] where
  cut rest := by
    simp only [List.cons_append, List.nil_append, List.append_assoc]
    rw [ofChars_plain (by decide), ofChars_plain (by decide), ofChars_plain (by decide), h.cut,
      ofChars_plain (by decide), ofChars_plain (by decide)]
    rfl
  calm rest _ := calm_cons _ _ (by decide)
  run s first found rest fuel hs hrest hr hfuel := by
    simp only [List.cons_append, List.nil_append, List.append_assoc] at hrest
    have hlen := congrArg List.length hrest
    simp only [List.length_cons, List.length_append] at hlen
    obtain ⟨fuel, rfl⟩ : ∃ n, fuel = n + 3 := ⟨fuel - 3, by omega⟩
    have hclosing : Calm (⟨false, ')'⟩ :: ⟨false, '?'⟩ :: rest) := calm_cons _ _ (by decide)
    obtain ⟨fuel₁, hfuel₁, hbody⟩ := h.run
      { s with rest := toks ++ ⟨false, ')'⟩ :: ⟨false, '?'⟩ :: rest } false [] _ fuel hs rfl
      hclosing (by simp only [List.length_append, List.length_cons]; omega)
    obtain ⟨fuel₁, rfl⟩ : ∃ n, fuel₁ = n + 1 := ⟨fuel₁ - 1, by omega⟩
    rw [List.append_nil, run_sequence_end false items.reverse fuel₁ (by rintro t ⟨⟩; decide),
      List.reverse_reverse] at hbody
    refine ⟨fuel, by omega, ?_⟩
    rw [run_sequence_group hs first found fuel hrest hbody,
      run_sequence_mark (cutOff_with hs _) first found fuel (.inr ⟨rfl, rfl⟩) rfl hr rfl rfl]
    rfl

end Parse

open Parse in
/-- **A pattern is read as its parts are**, in a row. -/
theorem Regex.parse_eq {cs : List Char} {toks : List Token} {items : List Regex}
    (h : Reads cs toks items) (charNamed? : List Char → Option CodePoint) :
    Regex.parse charNamed? cs = .ok (inRow items) := by
  have hcut : Token.ofChars cs = (toks, false) := by
    have hcut := h.cut []
    rw [List.append_nil] at hcut
    rw [hcut]
    simp [Token.ofChars]
  rw [Regex.parse, hcut]
  dsimp only
  rw [Bool.and_false, if_neg Bool.false_ne_true]
  set s : Reader :=
    { charNamed?, rest := toks, cutOff := false, flags := {}, groups := [none], names := []
      behindFrom := none, wanted := [], uneven := false }
  obtain ⟨fuel, hfuel, hrun⟩ := h.run s true [] [] (4 * toks.length + 7) rfl (by simp [s])
    (by rintro t ⟨⟩) (by simp only [s]; omega)
  obtain ⟨fuel, rfl⟩ : ∃ n, fuel = n + 1 := ⟨fuel - 1, by omega⟩
  rw [List.append_nil, run_sequence_end true items.reverse fuel (by rintro t ⟨⟩),
    List.reverse_reverse] at hrun
  have hbar : (accept '|').run { s with rest := [] } = .ok (false, { s with rest := [] }) :=
    run_accept_false (by rintro t ⟨⟩)
  have halternatives : (alternatives {} true (4 * toks.length + 8)).run s =
      .ok (inRow items, { s with rest := [] }) := by
    rw [alternatives, StateT.run_bind, hrun, ok_bind]
    dsimp only
    rw [StateT.run_bind, hbar, ok_bind]
    rfl
  have hwhole : (whole (4 * toks.length + 8)).run s = .ok (inRow items, { s with rest := [] }) := by
    rw [whole, StateT.run_bind, halternatives, ok_bind]
    rfl
  show ((whole (4 * toks.length + 8)).run s >>= fun read => .ok read.1) = _
  rw [hwhole]
  rfl

end Letterhead.Pattern
