import Letterhead.Proofs.Pattern.Match
import Letterhead.Text.Lines

/-!
Regular expressions that a carriage return at the end of a text makes no difference to.

Such an expression does not ask for the end of the text, and never has to take a carriage return:
it may take one only where it may take any number of characters and goes on without it as well.
The usual patterns, made of characters, of `.*` and of places before and between words, are blind
in this way; one that ends in `$` is not.
-/

namespace Letterhead.Pattern

namespace Anchor

/-- Whether the place is one of these is told by what lies before it, and by a word behind it. -/
def isBlind : Anchor → Bool
  | textStart => true
  | lineStart => true
  | wordEdge _ => true
  | _ => false

end Anchor

namespace Regex

def isSet : Regex → Bool
  | set _ => true
  | _ => false

/-- A carriage return at the end of the text is not seen. -/
def isBlind : Regex → Bool
  | empty => true
  | set s => !s.contains '\r'
  | anchor a => a.isBlind
  | seq a b => a.isBlind && b.isBlind
  | either a b => a.isBlind && b.isBlind
  | group r => r.isBlind
  | capture _ r => r.isBlind
  | loop r min max greed =>
    (r.isBlind || (r.isSet && min == 0)) && greed != .all && max.all (min ≤ ·)
  | _ => false

lemma isPlain_of_isSet {r : Regex} (h : r.isSet = true) : r.isPlain = true := by
  cases r <;> simp_all [isSet, isPlain]

lemma isPlain_of_isBlind {r : Regex} (h : r.isBlind = true) : r.isPlain = true := by
  induction r with
  | seq a b iha ihb =>
    simp only [isBlind, Bool.and_eq_true] at h
    simp [isPlain, iha h.1, ihb h.2]
  | either a b iha ihb =>
    simp only [isBlind, Bool.and_eq_true] at h
    simp [isPlain, iha h.1, ihb h.2]
  | group r ih => exact ih h
  | capture i r ih => exact ih h
  | loop r min max greed ih =>
    simp only [isBlind, Bool.and_eq_true, Bool.or_eq_true] at h
    obtain ⟨⟨hr, hgreed⟩, hmax⟩ := h
    have hplain : r.isPlain = true := by
      rcases hr with hr | ⟨hr, -⟩
      · exact ih hr
      · exact isPlain_of_isSet hr
    simp only [isPlain, hplain, hgreed, hmax, Bool.and_self]
  | _ => simp_all [isBlind, isPlain]

end Regex

/-! ### Spots of a text and of the text with a carriage return -/

namespace Spot

/-- The same spot in the text with a carriage return at its end. -/
def ended (x : Spot) : Spot := ⟨x.before, x.after ++ LineEnd.crlf.tail⟩

/-- The spot behind the carriage return. -/
def past (x : Spot) : Spot := ⟨LineEnd.crlf.tail ++ x.before, []⟩

/-- What a spot of the text with a carriage return stands for in the text without it: both spots at
the end stand for the end. -/
inductive For (x : Spot) : Spot → Prop where
  | ended : For x x.ended
  | past (h : x.after = []) : For x x.past

lemma Passes.ended {x y : Spot} {t : Text} (h : x.Passes t y) : x.ended.Passes t y.ended := by
  obtain ⟨h1, h2⟩ := h
  exact ⟨by simp [Spot.ended, h1], h2⟩

lemma For.passes {x x' y' : Spot} {c : CodePoint} (h : x.For x') (hc : x'.Passes [c] y') :
    (∃ y, y.For y' ∧ x.Passes [c] y) ∨ (c = CodePoint.ofChar '\r' ∧ x.For y') := by
  obtain ⟨before, after⟩ := x
  obtain ⟨yb, ya⟩ := y'
  obtain ⟨h1, rfl⟩ := hc
  cases h with
  | past h => exact absurd h1 (List.cons_ne_nil c ya).symm
  | ended =>
    rcases after with _ | ⟨d, after⟩
    · obtain ⟨hd, rfl⟩ : CodePoint.ofChar '\r' = c ∧ [] = ya := List.cons.inj h1
      exact Or.inr ⟨hd.symm, hd ▸ For.past rfl⟩
    · obtain ⟨rfl, rfl⟩ : d = c ∧ after ++ LineEnd.crlf.tail = ya := List.cons.inj h1
      exact Or.inl ⟨⟨d :: before, after⟩, .ended, rfl, rfl⟩

lemma exists_for_of_append {t u v : Text} (h : t ++ LineEnd.crlf.tail = u ++ v) :
    ∃ u₀ v₀, t = u₀ ++ v₀ ∧ For ⟨u₀.reverse, v₀⟩ ⟨u.reverse, v⟩ := by
  rcases List.eq_nil_or_concat v with rfl | ⟨v₀, c, rfl⟩
  · obtain rfl : t ++ LineEnd.crlf.tail = u := by rw [h, List.append_nil]
    refine ⟨t, [], (List.append_nil t).symm, ?_⟩
    rw [List.reverse_append]
    exact .past rfl
  · rw [List.concat_eq_append, ← List.append_assoc] at h
    obtain ⟨rfl, hc⟩ := List.append_inj' h rfl
    refine ⟨u, v₀, rfl, ?_⟩
    rw [List.concat_eq_append, ← hc]
    exact .ended

end Spot

open Spot

lemma isWordAt_return (ascii : Bool) :
    Place.isWordAt (some (CodePoint.ofChar '\r')) ascii = false := by
  cases ascii <;> decide

lemma satisfies_ended {a : Anchor} (ha : a.isBlind = true) (x : Spot) :
    x.ended.place.satisfies a = x.place.satisfies a := by
  obtain ⟨before, after⟩ := x
  cases a with
  | textStart => rfl
  | lineStart => rfl
  | wordEdge ascii =>
    rcases after with _ | ⟨c, after⟩
    · have hreturn := isWordAt_return ascii
      exact congrArg (_ != ·) hreturn
    · rfl
  | _ => simp [Anchor.isBlind] at ha

lemma satisfies_past {a : Anchor} (ha : a.isBlind = true) (x : Spot) :
    x.past.place.satisfies a = false := by
  cases a with
  | textStart => rfl
  | lineStart => rfl
  | wordEdge ascii =>
    have hreturn := isWordAt_return ascii
    exact congrArg (· != false) hreturn
  | _ => simp [Anchor.isBlind] at ha

/-! ### Repetition -/

lemma times_ended {R : Spot → Spot → Prop} (hR : ∀ x y, R x y → R x.ended y.ended) {n : Nat}
    {x y : Spot} (h : Times R n x y) : Times R n x.ended y.ended := by
  induction h with
  | zero x => exact .zero _
  | succ h _ ih => exact .succ (hR _ _ h) ih

lemma times_for {R : Spot → Spot → Prop}
    (hR : ∀ x x' y', x.For x' → R x' y' → ∃ y, y.For y' ∧ R x y) {n : Nat} {x x' y' : Spot}
    (hx : x.For x') (h : Times R n x' y') : ∃ y, y.For y' ∧ Times R n x y := by
  induction h generalizing x with
  | zero x' => exact ⟨x, hx, .zero x⟩
  | succ h _ ih =>
    obtain ⟨z, hz, hxz⟩ := hR _ _ _ hx h
    obtain ⟨y, hy, hzy⟩ := ih hz
    exact ⟨y, hy, .succ hxz hzy⟩

lemma times_for_le {R : Spot → Spot → Prop}
    (hR : ∀ x x' y', x.For x' → R x' y' → (∃ y, y.For y' ∧ R x y) ∨ x.For y') {n : Nat}
    {x x' y' : Spot} (hx : x.For x') (h : Times R n x' y') :
    ∃ m ≤ n, ∃ y, y.For y' ∧ Times R m x y := by
  induction h generalizing x with
  | zero x' => exact ⟨0, Nat.le_refl 0, x, hx, .zero x⟩
  | succ h _ ih =>
    rcases hR _ _ _ hx h with ⟨z, hz, hxz⟩ | hz
    · obtain ⟨m, hm, y, hy, hzy⟩ := ih hz
      exact ⟨m + 1, by omega, y, hy, .succ hxz hzy⟩
    · obtain ⟨m, hm, y, hy, hxy⟩ := ih hz
      exact ⟨m, by omega, y, hy, hxy⟩

namespace Regex

/-! ### Blind expressions -/

lemma reaches_set_ended {s : CharSet} {x y : Spot} (h : (set s).Reaches x y) :
    (set s).Reaches x.ended y.ended := by
  obtain ⟨c, hc, hxy⟩ := h
  exact ⟨c, hc, hxy.ended⟩

lemma reaches_set_for {s : CharSet} {x x' y' : Spot} (hx : x.For x')
    (h : (set s).Reaches x' y') :
    (∃ y, y.For y' ∧ (set s).Reaches x y) ∨ s.contains '\r' = true ∧ x.For y' := by
  obtain ⟨c, hc, hxy⟩ := h
  rcases hx.passes hxy with ⟨y, hy, hxy⟩ | ⟨rfl, hfor⟩
  · exact Or.inl ⟨y, hy, c, hc, hxy⟩
  · exact Or.inr ⟨hc, hfor⟩

lemma reaches_ended {r : Regex} (hr : r.isBlind = true) {x y : Spot} (h : r.Reaches x y) :
    r.Reaches x.ended y.ended := by
  induction r generalizing x y with
  | empty =>
    obtain rfl : y = x := h
    exact rfl
  | set s => exact reaches_set_ended h
  | anchor a =>
    obtain ⟨hs, rfl⟩ : x.place.satisfies a = true ∧ y = x := h
    exact ⟨by rwa [satisfies_ended hr], rfl⟩
  | seq a b iha ihb =>
    simp only [isBlind, Bool.and_eq_true] at hr
    obtain ⟨m, ha, hb⟩ := h
    exact ⟨m.ended, iha hr.1 ha, ihb hr.2 hb⟩
  | either a b iha ihb =>
    simp only [isBlind, Bool.and_eq_true] at hr
    exact h.imp (iha hr.1) (ihb hr.2)
  | group r ih => exact ih hr h
  | capture i r ih => exact ih hr h
  | loop r min max greed ih =>
    simp only [isBlind, Bool.and_eq_true, Bool.or_eq_true] at hr
    obtain ⟨n, hmin, hmax, hn⟩ := h
    refine ⟨n, hmin, hmax, times_ended (fun x y hxy => ?_) hn⟩
    rcases hr.1.1 with hr | ⟨hset, -⟩
    · exact ih hr hxy
    · cases r with
      | set s => exact reaches_set_ended hxy
      | _ => simp [isSet] at hset
  | _ => exact h.elim

lemma reaches_for {r : Regex} (hr : r.isBlind = true) {x x' y' : Spot} (hx : x.For x')
    (h : r.Reaches x' y') : ∃ y, y.For y' ∧ r.Reaches x y := by
  induction r generalizing x x' y' with
  | empty =>
    obtain rfl : y' = x' := h
    exact ⟨x, hx, rfl⟩
  | set s =>
    have hreturn : s.contains '\r' = false := by simpa [isBlind] using hr
    rcases reaches_set_for hx h with hy | ⟨hc, -⟩
    · exact hy
    · exact absurd hc (by simp [hreturn])
  | anchor a =>
    obtain ⟨hs, rfl⟩ : x'.place.satisfies a = true ∧ y' = x' := h
    refine ⟨x, hx, ?_, rfl⟩
    cases hx with
    | ended => rwa [← satisfies_ended hr]
    | past hnil => simp [satisfies_past hr] at hs
  | seq a b iha ihb =>
    simp only [isBlind, Bool.and_eq_true] at hr
    obtain ⟨m', ha, hb⟩ := h
    obtain ⟨m, hm, hxm⟩ := iha hr.1 hx ha
    obtain ⟨y, hy, hmy⟩ := ihb hr.2 hm hb
    exact ⟨y, hy, m, hxm, hmy⟩
  | either a b iha ihb =>
    simp only [isBlind, Bool.and_eq_true] at hr
    rcases h with h | h
    · obtain ⟨y, hy, hxy⟩ := iha hr.1 hx h
      exact ⟨y, hy, Or.inl hxy⟩
    · obtain ⟨y, hy, hxy⟩ := ihb hr.2 hx h
      exact ⟨y, hy, Or.inr hxy⟩
  | group r ih => exact ih hr hx h
  | capture i r ih => exact ih hr hx h
  | loop r min max greed ih =>
    simp only [isBlind, Bool.and_eq_true, Bool.or_eq_true] at hr
    obtain ⟨n, hmin, hmax, hn⟩ := h
    rcases hr.1.1 with hr | ⟨hset, hzero⟩
    · obtain ⟨y, hy, hxy⟩ := times_for (fun x x' y' hx h => ih hr hx h) hx hn
      exact ⟨y, hy, n, hmin, hmax, hxy⟩
    · cases r with
      | set s =>
        obtain ⟨m, hm, y, hy, hxy⟩ := times_for_le
          (fun x x' y' hx h => (reaches_set_for hx h).imp_right And.right) hx hn
        have hmin : min = 0 := by simpa using hzero
        exact ⟨y, hy, m, by omega, all_le_of_le hm hmax, hxy⟩
      | _ => simp [isSet] at hset
  | _ => exact h.elim

/-- **A carriage return at the end makes no difference** to where a blind expression occurs. -/
theorem occursIn_append_tail {r : Regex} (hr : r.isBlind = true) (t : Text) (e : LineEnd) :
    r.occursIn (t ++ e.tail) = r.occursIn t := by
  cases e with
  | lf => rw [LineEnd.tail, List.append_nil]
  | crlf =>
    have hplain := isPlain_of_isBlind hr
    rw [Bool.eq_iff_iff, occursIn_iff hplain, occursIn_iff hplain]
    constructor
    · rintro ⟨u, v, y', h, hy⟩
      obtain ⟨u₀, v₀, rfl, hfor⟩ := exists_for_of_append h
      obtain ⟨y, -, hxy⟩ := reaches_for hr hfor hy
      exact ⟨u₀, v₀, y, rfl, hxy⟩
    · rintro ⟨u, v, y, rfl, hy⟩
      exact ⟨u, v ++ LineEnd.crlf.tail, y.ended, List.append_assoc u v _, reaches_ended hr hy⟩

end Regex

variable {host : Host}

/-- The pattern is a valid one, and its expression is blind. -/
def isBlind (host : Host) (pattern : String) : Bool :=
  match Regex.parse host.charNamed? pattern.toList with
  | .ok r => r.isBlind
  | .error _ => false

lemma search_append_tail {pattern : String} (h : isBlind host pattern = true) (t : Text)
    (e : LineEnd) : search host pattern (t ++ e.tail) = search host pattern t := by
  unfold isBlind at h
  unfold search
  cases hr : Regex.parse host.charNamed? pattern.toList with
  | error err => rfl
  | ok r =>
    rw [hr] at h
    simp only [Except.map, Regex.occursIn_append_tail h]

lemma anyOccurs_append_tail {patterns : List String} (h : ∀ p ∈ patterns, isBlind host p = true)
    (t : Text) (e : LineEnd) :
    anyOccurs host patterns (t ++ e.tail) = anyOccurs host patterns t := by
  unfold anyOccurs
  rw [Bool.eq_iff_iff, List.any_eq_true, List.any_eq_true]
  exact exists_congr fun p => and_congr_right fun hp => by
    rw [occurs, occurs, search_append_tail (h p hp)]

lemma halt?_append_tail {patterns : List String} (h : ∀ p ∈ patterns, isBlind host p = true)
    (t : Text) (e : LineEnd) : halt? host (t ++ e.tail) patterns = halt? host t patterns := by
  induction patterns with
  | nil => rfl
  | cons p rest ih =>
    obtain ⟨hp, hrest⟩ := List.forall_mem_cons.mp h
    rw [halt?, halt?, search_append_tail hp, ih hrest]

end Letterhead.Pattern
