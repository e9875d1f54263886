import Mathlib.Data.List.TakeWhile
import Letterhead.Pattern.Regex.Search

/-!
What a regular expression matches, told without the search for it.

An expression that asks for nothing but characters and places relates the spots of a text at which
a match begins to those at which it ends. The search finds a match just if there is one with what
follows behind it: the order in which alternatives are tried, and the stop of a repetition that
gets no further, decide only which match is found.
-/

namespace Letterhead.Pattern

/-- A place in a text, whatever the groups have matched. -/
structure Spot where
  /-- What lies before, nearest character first. -/
  before : Text
  after : Text
deriving DecidableEq

namespace Spot

def place (x : Spot) : Place := ⟨x.before, x.after, []⟩

/-- The other spot lies behind these characters. -/
def Passes (x : Spot) (t : Text) (y : Spot) : Prop :=
  x.after = t ++ y.after ∧ y.before = t.reverse ++ x.before

lemma Passes.refl (x : Spot) : x.Passes [] x := ⟨rfl, rfl⟩

lemma Passes.trans {x y z : Spot} {t u : Text} (h : x.Passes t y) (h' : y.Passes u z) :
    x.Passes (t ++ u) z := by
  obtain ⟨h1, h2⟩ := h
  obtain ⟨h3, h4⟩ := h'
  exact ⟨by rw [h1, h3, List.append_assoc], by rw [h4, h2, List.reverse_append, List.append_assoc]⟩

lemma Passes.eq_or_lt {x y : Spot} {t : Text} (h : x.Passes t y) :
    y = x ∨ y.after.length < x.after.length := by
  obtain ⟨h1, h2⟩ := h
  rcases t with _ | ⟨c, t⟩
  · obtain ⟨xb, xa⟩ := x
    obtain ⟨yb, ya⟩ := y
    exact Or.inl (by simp_all)
  · refine Or.inr ?_
    rw [h1, List.length_append, List.length_cons]
    omega

end Spot

def Place.spot (p : Place) : Spot := ⟨p.before, p.after⟩

@[simp] lemma spot_place (x : Spot) : x.place.spot = x := rfl

@[simp] lemma spot_withGroup (q p : Place) (i : Nat) : (q.withGroup p i).spot = q.spot := rfl

lemma satisfies_spot (p : Place) (a : Anchor) : p.spot.place.satisfies a = p.satisfies a := by
  cases a <;> rfl

/-- So many steps of a relation in a row. -/
inductive Times (R : Spot → Spot → Prop) : Nat → Spot → Spot → Prop where
  | zero (x : Spot) : Times R 0 x x
  | succ {n : Nat} {x y z : Spot} (h : R x y) (hs : Times R n y z) : Times R (n + 1) x z

lemma times_zero_iff {R : Spot → Spot → Prop} {x y : Spot} : Times R 0 x y ↔ y = x := by
  constructor
  · rintro ⟨⟩
    rfl
  · rintro rfl
    exact .zero _

lemma times_succ_iff {R : Spot → Spot → Prop} {n : Nat} {x z : Spot} :
    Times R (n + 1) x z ↔ ∃ y, R x y ∧ Times R n y z := by
  constructor
  · rintro (_ | ⟨h, hs⟩)
    exact ⟨_, h, hs⟩
  · rintro ⟨y, h, hs⟩
    exact .succ h hs

lemma all_le_of_le {a b : Nat} (h : a ≤ b) {max : Option Nat} (hb : max.all (b ≤ ·) = true) :
    max.all (a ≤ ·) = true := by
  cases max with
  | none => rfl
  | some m =>
    simp only [Option.all_some, decide_eq_true_eq] at hb ⊢
    omega

namespace Regex

/-- Nothing but characters and places are asked for, and no way to match is cut off. -/
def isPlain : Regex → Bool
  | empty => true
  | set _ => true
  | anchor _ => true
  | seq a b => a.isPlain && b.isPlain
  | either a b => a.isPlain && b.isPlain
  | group r => r.isPlain
  | capture _ r => r.isPlain
  | loop r min max greed => r.isPlain && greed != .all && max.all (min ≤ ·)
  | _ => false

/-- A plain expression matches what lies between two spots. -/
def Reaches : Regex → Spot → Spot → Prop
  | empty, x, y => y = x
  | set s, x, y => ∃ c, s.contains c = true ∧ x.Passes [c] y
  | anchor a, x, y => x.place.satisfies a = true ∧ y = x
  | seq a b, x, z => ∃ y, Reaches a x y ∧ Reaches b y z
  | either a b, x, y => Reaches a x y ∨ Reaches b x y
  | group r, x, y => Reaches r x y
  | capture _ r, x, y => Reaches r x y
  | loop r min max _, x, y => ∃ n, min ≤ n ∧ max.all (n ≤ ·) = true ∧ Times (Reaches r) n x y
  | _, _, _ => False

lemma passes_of_times {R : Spot → Spot → Prop} (hR : ∀ x y, R x y → ∃ t, x.Passes t y) {n : Nat}
    {x y : Spot} (h : Times R n x y) : ∃ t, x.Passes t y := by
  induction h with
  | zero x => exact ⟨[], .refl x⟩
  | succ h _ ih =>
    obtain ⟨t, ht⟩ := hR _ _ h
    obtain ⟨u, hu⟩ := ih
    exact ⟨t ++ u, ht.trans hu⟩

lemma passes_of_reaches {r : Regex} {x y : Spot} (h : r.Reaches x y) : ∃ t, x.Passes t y := by
  induction r generalizing x y with
  | empty =>
    obtain rfl : y = x := h
    exact ⟨[], .refl y⟩
  | set s =>
    obtain ⟨c, -, hc⟩ := h
    exact ⟨[c], hc⟩
  | anchor a =>
    obtain ⟨-, rfl⟩ : _ ∧ y = x := h
    exact ⟨[], .refl y⟩
  | seq a b iha ihb =>
    obtain ⟨m, ha, hb⟩ := h
    obtain ⟨t, ht⟩ := iha ha
    obtain ⟨u, hu⟩ := ihb hb
    exact ⟨t ++ u, ht.trans hu⟩
  | either a b iha ihb =>
    rcases h with h | h
    · exact iha h
    · exact ihb h
  | group r ih => exact ih h
  | capture i r ih => exact ih h
  | loop r min max greed ih =>
    obtain ⟨n, -, -, hn⟩ := h
    exact passes_of_times (fun x y hxy => ih hxy) hn
  | _ => exact h.elim

end Regex

/-! ### Repetition -/

/-- Whether there is a match from a place on does not depend on the groups. -/
def IsLocal (k : Continuation) : Prop := ∀ p, (k p).isSome = (k p.spot.place).isSome

/-- A body is matched just if it reaches a spot from which what follows is matched. -/
def Finds (body : Continuation → Continuation) (R : Spot → Spot → Prop) : Prop :=
  ∀ k, IsLocal k → ∀ p, (body k p).isSome = true ↔ ∃ y, R p.spot y ∧ (k y.place).isSome = true

lemma Finds.isLocal {body : Continuation → Continuation} {R : Spot → Spot → Prop}
    (hbody : Finds body R) {k : Continuation} (hk : IsLocal k) : IsLocal (body k) := by
  intro p
  rw [Bool.eq_iff_iff, hbody k hk, hbody k hk, spot_place]

/-- What repetitions have in common, whether they try to go on or to stop first: below the least
number the body has to match; from then on it may, unless it began here before. -/
structure IsRepeat (body : Continuation → Continuation) (min : Nat) (max : Option Nat)
    (k : Continuation) (f : Nat → Nat → Option Nat → Continuation) : Prop where
  done : ∀ count last p, f 0 count last p = k p
  forced : ∀ fuel count last p, count < min →
    f (fuel + 1) count last p = body (f fuel (count + 1) last) p
  free : ∀ fuel count last p, min ≤ count →
    ((f (fuel + 1) count last p).isSome = true ↔ (k p).isSome = true ∨
      max.all (count < ·) = true ∧ last ≠ some p.after.length ∧
        (body (f fuel (count + 1) (some p.after.length)) p).isSome = true)

lemma isRepeat_most (body : Continuation → Continuation) (min : Nat) (max : Option Nat)
    (k : Continuation) : IsRepeat body min max k (Regex.repeatMost body min max k) where
  done _ _ _ := rfl
  forced fuel count last p h := by rw [Regex.repeatMost, if_pos h]
  free fuel count last p h := by
    rw [Regex.repeatMost, if_neg (by omega)]
    split
    · next hgo =>
      simp only [Bool.and_eq_true, bne_iff_ne] at hgo
      simp [hgo, or_comm]
    · next hgo =>
      simp only [Bool.and_eq_true, bne_iff_ne] at hgo
      exact ⟨Or.inl, fun hs => hs.resolve_right fun h => hgo ⟨h.1, h.2.1⟩⟩

lemma isRepeat_fewest (body : Continuation → Continuation) (min : Nat) (max : Option Nat)
    (k : Continuation) : IsRepeat body min max k (Regex.repeatFewest body min max k) where
  done _ _ _ := rfl
  forced fuel count last p h := by rw [Regex.repeatFewest, if_pos h]
  free fuel count last p h := by
    rw [Regex.repeatFewest, if_neg (by omega)]
    split
    · next hgo =>
      simp only [Bool.and_eq_true, bne_iff_ne] at hgo
      simp [hgo]
    · next hgo =>
      simp only [Bool.and_eq_true, bne_iff_ne] at hgo
      rw [Option.or_none]
      exact ⟨Or.inl, fun hs => hs.resolve_right fun h => hgo ⟨h.1, h.2.1⟩⟩

section

variable {body : Continuation → Continuation} {R : Spot → Spot → Prop} {min : Nat}
  {max : Option Nat} {k : Continuation} {f : Nat → Nat → Option Nat → Continuation}
  (hf : IsRepeat body min max k f) (hbody : Finds body R) (hk : IsLocal k)
  (hR : ∀ x y, R x y → ∃ t, x.Passes t y)

include hf hbody hk

lemma isLocal_repeat (fuel count : Nat) (last : Option Nat) : IsLocal (f fuel count last) := by
  induction fuel generalizing count last with
  | zero =>
    intro p
    rw [hf.done, hf.done, hk]
  | succ fuel ih =>
    intro p
    rcases Nat.lt_or_ge count min with h | h
    · rw [hf.forced fuel count last p h, hf.forced fuel count last _ h]
      exact hbody.isLocal (ih _ _) p
    · have hlen : p.spot.place.after = p.after := rfl
      rw [Bool.eq_iff_iff, hf.free fuel count last p h, hf.free fuel count last _ h, hlen, ← hk p,
        ← hbody.isLocal (ih _ _) p]

omit hbody hk in
lemma isSome_repeat_stalled {count : Nat} (hc : min ≤ count) (fuel : Nat) (p : Place) :
    (f fuel count (some p.after.length) p).isSome = (k p).isSome := by
  cases fuel with
  | zero => rw [hf.done]
  | succ fuel =>
    rw [Bool.eq_iff_iff, hf.free fuel count _ p hc]
    simp

include hR

/-- From the least number on the body is matched any number of times, up to the greatest. A match
of nothing is stopped behind, but as it is a match of nothing, it may as well be left out. -/
lemma isSome_repeat_free {fuel count : Nat} {last : Option Nat} {p : Place} (hc : min ≤ count)
    (hfuel : p.after.length < fuel) (hlast : last ≠ some p.after.length) :
    (f fuel count last p).isSome = true ↔ ∃ n y, Times R n p.spot y ∧
      (n = 0 ∨ max.all (count + n ≤ ·) = true) ∧ (k y.place).isSome = true := by
  induction fuel generalizing count last p with
  | zero => omega
  | succ fuel ih =>
    have hlocal := isLocal_repeat hf hbody hk fuel (count + 1) (some p.after.length)
    rw [hf.free fuel count last p hc, hbody _ hlocal p]
    constructor
    · rintro (hdone | ⟨hmax, -, m, hm, hgo⟩)
      · exact ⟨0, p.spot, .zero _, Or.inl rfl, by rwa [← hk p]⟩
      · obtain ⟨t, ht⟩ := hR _ _ hm
        rcases ht.eq_or_lt with rfl | hlt
        · rw [show p.after.length = p.spot.place.after.length from rfl,
            isSome_repeat_stalled hf (by omega)] at hgo
          exact ⟨0, p.spot, .zero _, Or.inl rfl, hgo⟩
        · have hlt' : m.place.after.length < p.after.length := hlt
          rw [ih (by omega) (by omega) (by simp; omega)] at hgo
          obtain ⟨n, y, hn, hle, hy⟩ := hgo
          refine ⟨n + 1, y, .succ hm hn, Or.inr ?_, hy⟩
          rcases hle with rfl | hle
          · exact hmax
          · rwa [show count + (n + 1) = count + 1 + n by omega]
    · rintro ⟨n, y, hn, hle, hy⟩
      induction n with
      | zero =>
        obtain rfl := times_zero_iff.mp hn
        exact Or.inl (by rwa [hk p])
      | succ n ihn =>
        obtain ⟨m, hm, hn⟩ := times_succ_iff.mp hn
        obtain ⟨t, ht⟩ := hR _ _ hm
        have hle := hle.resolve_left (by omega)
        rcases ht.eq_or_lt with rfl | hlt
        · exact ihn hn (Or.inr (all_le_of_le (by omega) hle))
        · have hlt' : m.place.after.length < p.after.length := hlt
          refine Or.inr ⟨all_le_of_le (a := count + 1) (by omega) hle, hlast, m, hm, ?_⟩
          rw [ih (by omega) (by omega) (by simp; omega)]
          exact ⟨n, y, hn, Or.inr (by rwa [show count + 1 + n = count + (n + 1) by omega]), hy⟩

lemma isSome_repeat {d count fuel : Nat} {p : Place} (hd : count + d = min)
    (hmax : max.all (min ≤ ·) = true) (hfuel : d + p.after.length < fuel) :
    (f fuel count none p).isSome = true ↔ ∃ n y, Times R n p.spot y ∧
      min ≤ count + n ∧ max.all (count + n ≤ ·) = true ∧ (k y.place).isSome = true := by
  induction d generalizing count fuel p with
  | zero =>
    rw [isSome_repeat_free hf hbody hk hR (by omega) (by omega) (by simp)]
    constructor
    · rintro ⟨n, y, hn, hle, hy⟩
      refine ⟨n, y, hn, by omega, ?_, hy⟩
      rcases hle with rfl | hle
      · rwa [hd]
      · exact hle
    · rintro ⟨n, y, hn, -, hle, hy⟩
      exact ⟨n, y, hn, Or.inr hle, hy⟩
  | succ d ih =>
    obtain ⟨fuel, rfl⟩ : ∃ n, fuel = n + 1 := ⟨fuel - 1, by omega⟩
    rw [hf.forced fuel count none p (by omega),
      hbody _ (isLocal_repeat hf hbody hk fuel (count + 1) none) p]
    have hstep : ∀ m, R p.spot m → ((f fuel (count + 1) none m.place).isSome = true ↔
        ∃ n y, Times R n m y ∧ min ≤ count + 1 + n ∧ max.all (count + 1 + n ≤ ·) = true ∧
          (k y.place).isSome = true) := by
      intro m hm
      obtain ⟨t, ht⟩ := hR _ _ hm
      have hle : m.place.after.length ≤ p.after.length := by
        rcases ht.eq_or_lt with rfl | hlt
        · exact Nat.le_refl _
        · exact Nat.le_of_lt hlt
      exact ih (by omega) (by omega)
    constructor
    · rintro ⟨m, hm, hgo⟩
      obtain ⟨n, y, hn, hmin, hle, hy⟩ := (hstep m hm).mp hgo
      rw [show count + 1 + n = count + (n + 1) by omega] at hmin hle
      exact ⟨n + 1, y, .succ hm hn, hmin, hle, hy⟩
    · rintro ⟨n, y, hn, hmin, hle, hy⟩
      obtain ⟨n, rfl⟩ : ∃ m, n = m + 1 := ⟨n - 1, by omega⟩
      obtain ⟨m, hm, hn⟩ := times_succ_iff.mp hn
      rw [show count + (n + 1) = count + 1 + n by omega] at hmin hle
      exact ⟨m, hm, (hstep m hm).mpr ⟨n, y, hn, hmin, hle, hy⟩⟩

end

namespace Regex

lemma finds_set (s : CharSet) : Finds (run (.set s)) (Reaches (.set s)) := by
  intro k hk p
  obtain ⟨before, after, groups⟩ := p
  rcases after with _ | ⟨c, after⟩
  · simp [run, Place.step?, Reaches, Place.spot, Spot.Passes]
  · by_cases hc : s.contains c = true
    · have hstep :
          run (.set s) k ⟨before, c :: after, groups⟩ = k ⟨c :: before, after, groups⟩ := by
        simp [run, Place.step?, hc]
      rw [hstep, hk]
      constructor
      · exact fun h => ⟨⟨c :: before, after⟩, ⟨c, hc, rfl, rfl⟩, h⟩
      · rintro ⟨⟨yb, ya⟩, ⟨d, -, h1, rfl⟩, h⟩
        obtain ⟨rfl, rfl⟩ : c = d ∧ after = ya := List.cons.inj h1
        exact h
    · have hstep : run (.set s) k ⟨before, c :: after, groups⟩ = none := by
        simp [run, Place.step?, hc]
      rw [hstep]
      refine iff_of_false (by simp) ?_
      rintro ⟨y, ⟨d, hd, h1, -⟩, -⟩
      obtain ⟨rfl, -⟩ : c = d ∧ after = y.after := List.cons.inj h1
      exact hc hd

lemma finds_anchor (a : Anchor) : Finds (run (.anchor a)) (Reaches (.anchor a)) := by
  intro k hk p
  simp only [run, Reaches, satisfies_spot]
  by_cases h : p.satisfies a = true <;> simp [h, hk p]

section

variable {a b r : Regex}

lemma finds_seq (ha : Finds a.run a.Reaches) (hb : Finds b.run b.Reaches) :
    Finds (run (.seq a b)) (Reaches (.seq a b)) := by
  intro k hk p
  simp only [run, ha _ (hb.isLocal hk) p, hb k hk, spot_place, Reaches]
  constructor
  · rintro ⟨m, hm, y, hy, hgo⟩
    exact ⟨y, ⟨m, hm, hy⟩, hgo⟩
  · rintro ⟨y, ⟨m, hm, hy⟩, hgo⟩
    exact ⟨m, hm, y, hy, hgo⟩

lemma finds_either (ha : Finds a.run a.Reaches) (hb : Finds b.run b.Reaches) :
    Finds (run (.either a b)) (Reaches (.either a b)) := by
  intro k hk p
  simp only [run, Option.isSome_or, Bool.or_eq_true, ha k hk p, hb k hk p, Reaches, or_and_right,
    exists_or]

lemma finds_capture (i : Nat) (hr : Finds r.run r.Reaches) :
    Finds (run (.capture i r)) (Reaches (.capture i r)) := by
  intro k hk p
  have hgroup : ∀ q : Place, (k (q.withGroup p i)).isSome = (k q.spot.place).isSome := fun q =>
    (hk _).trans (by rw [spot_withGroup])
  have hlocal : IsLocal fun q => k (q.withGroup p i) := fun q => by
    rw [hgroup, hgroup, spot_place]
  simp only [run, hr _ hlocal p, Reaches, hgroup, spot_place]

lemma finds_loop {min : Nat} {max : Option Nat} {greed : Greed} (hr : Finds r.run r.Reaches)
    (hgreed : greed ≠ .all) (hmax : max.all (min ≤ ·) = true) :
    Finds (run (.loop r min max greed)) (Reaches (.loop r min max greed)) := by
  intro k hk p
  have hrepeat : ∀ f, IsRepeat r.run min max k f →
      ((f (min + p.after.length + 2) 0 none p).isSome = true ↔
        ∃ y, Reaches (.loop r min max greed) p.spot y ∧ (k y.place).isSome = true) := by
    intro f hf
    rw [isSome_repeat hf hr hk (fun _ _ h => passes_of_reaches h) (d := min) (by omega) hmax
      (by omega)]
    simp only [Nat.zero_add, Reaches]
    constructor
    · rintro ⟨n, y, hn, hmin, hle, hy⟩
      exact ⟨y, ⟨n, hmin, hle, hn⟩, hy⟩
    · rintro ⟨y, ⟨n, hmin, hle, hn⟩, hy⟩
      exact ⟨n, y, hn, hmin, hle, hy⟩
  cases greed with
  | most => exact hrepeat _ (isRepeat_most _ _ _ _)
  | fewest => exact hrepeat _ (isRepeat_fewest _ _ _ _)
  | all => exact absurd rfl hgreed

end

/-- **The search finds what there is to find**: from a place on there is a match with what follows
just if the expression reaches a spot from which what follows is matched. -/
theorem finds_run {r : Regex} (hr : r.isPlain = true) : Finds r.run r.Reaches := by
  induction r with
  | empty =>
    intro k hk p
    simp [run, Reaches, hk p]
  | set s => exact finds_set s
  | anchor a => exact finds_anchor a
  | seq a b iha ihb =>
    simp only [isPlain, Bool.and_eq_true] at hr
    exact finds_seq (iha hr.1) (ihb hr.2)
  | either a b iha ihb =>
    simp only [isPlain, Bool.and_eq_true] at hr
    exact finds_either (iha hr.1) (ihb hr.2)
  | group r ih => exact ih hr
  | capture i r ih => exact finds_capture i (ih hr)
  | loop r min max greed ih =>
    simp only [isPlain, Bool.and_eq_true, bne_iff_ne] at hr
    obtain ⟨⟨hr, hgreed⟩, hmax⟩ := hr
    exact finds_loop (ih hr) hgreed hmax
  | _ => simp [isPlain] at hr

/-! ### Searching -/

lemma searchFrom_iff {r : Regex} (hr : r.isPlain = true) (before t : Text) :
    r.searchFrom before t = true ↔
      ∃ u v y, t = u ++ v ∧ r.Reaches ⟨u.reverse ++ before, v⟩ y := by
  have hstart : ∀ before t, (r.run some ⟨before, t, []⟩).isSome = true ↔
      ∃ y, r.Reaches ⟨before, t⟩ y := by
    intro before t
    rw [finds_run hr some (fun _ => rfl)]
    simp [Place.spot]
  induction t generalizing before with
  | nil =>
    rw [searchFrom, hstart]
    constructor
    · rintro ⟨y, hy⟩
      exact ⟨[], [], y, rfl, hy⟩
    · rintro ⟨u, v, y, h, hy⟩
      obtain ⟨rfl, rfl⟩ := List.append_eq_nil_iff.mp h.symm
      exact ⟨y, hy⟩
  | cons c t ih =>
    rw [searchFrom, Bool.or_eq_true, hstart]
    refine (or_congr_right (ih (c :: before))).trans ?_
    constructor
    · rintro (⟨y, hy⟩ | ⟨u, v, y, rfl, hy⟩)
      · exact ⟨[], c :: t, y, rfl, hy⟩
      · exact ⟨c :: u, v, y, rfl, by simpa using hy⟩
    · rintro ⟨_ | ⟨d, u⟩, v, y, h, hy⟩
      · obtain rfl : c :: t = v := h
        exact Or.inl ⟨y, hy⟩
      · obtain ⟨rfl, rfl⟩ := List.cons.inj h
        exact Or.inr ⟨u, v, y, rfl, by simpa using hy⟩

/-- **An expression occurs in a text** just if it reaches some spot from some spot of it. -/
theorem occursIn_iff {r : Regex} (hr : r.isPlain = true) (t : Text) :
    r.occursIn t = true ↔ ∃ u v y, t = u ++ v ∧ r.Reaches ⟨u.reverse, v⟩ y := by
  rw [occursIn, searchFrom_iff hr]
  simp

end Regex

end Letterhead.Pattern
