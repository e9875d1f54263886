import Mathlib.Computability.Language
import Letterhead.Proofs.Pattern.Match
import Letterhead.Proofs.Pattern.Read

/-!
What a pattern stands for, put together from what its parts stand for.

A part of a pattern denotes the texts that it matches, whatever lies around them. Parts in a row
denote texts in a row. A pattern matches at the start of a text just if the text starts with one
that the pattern denotes: where a part has several ways to match, the search goes back to them.
-/

namespace Letterhead.Pattern

namespace Spot

lemma passes_nil_iff {x y : Spot} : x.Passes [] y ↔ y = x := by
  constructor
  · rintro ⟨h1, h2⟩
    obtain ⟨xb, xa⟩ := x
    obtain ⟨yb, ya⟩ := y
    obtain rfl : xa = ya := h1
    obtain rfl : yb = xb := h2
    rfl
  · rintro rfl
    exact .refl y

lemma passes_append_iff {x z : Spot} {t u : Text} :
    x.Passes (t ++ u) z ↔ ∃ y, x.Passes t y ∧ y.Passes u z := by
  constructor
  · rintro ⟨h1, h2⟩
    refine ⟨⟨t.reverse ++ x.before, u ++ z.after⟩, ⟨by rw [h1, List.append_assoc], rfl⟩, rfl, ?_⟩
    rw [h2, List.reverse_append, List.append_assoc]
  · rintro ⟨y, h, h'⟩
    exact h.trans h'

end Spot

lemma contains_single {c d : CodePoint} : (CharSet.single .exact c).contains d = true ↔ d = c := by
  simp [CharSet.single, CharSet.contains, Member.holds, CaseRule.same, CaseRule.letters, eq_comm]

lemma times_set_iff {s : CharSet} {n : Nat} {x z : Spot} :
    Times (Regex.Reaches (.set s)) n x z ↔
      ∃ u : Text, u.length = n ∧ (∀ c ∈ u, s.contains c = true) ∧ x.Passes u z := by
  induction n generalizing x with
  | zero =>
    rw [times_zero_iff, ← Spot.passes_nil_iff]
    constructor
    · exact fun h => ⟨[], rfl, by simp, h⟩
    · rintro ⟨u, hu, -, h⟩
      obtain rfl := List.length_eq_zero_iff.mp hu
      exact h
  | succ n ih =>
    rw [times_succ_iff]
    constructor
    · rintro ⟨y, ⟨c, hc, hy⟩, hz⟩
      obtain ⟨u, hu, hall, hz⟩ := ih.mp hz
      exact ⟨c :: u, by rw [List.length_cons, hu], List.forall_mem_cons.mpr ⟨hc, hall⟩, hy.trans hz⟩
    · rintro ⟨u, hu, hall, h⟩
      obtain ⟨c, u, rfl⟩ := List.exists_cons_of_length_eq_add_one hu
      obtain ⟨hc, hall⟩ := List.forall_mem_cons.mp hall
      obtain ⟨y, hy, hz⟩ := (Spot.passes_append_iff (t := [c])).mp h
      exact ⟨y, ⟨c, hc, hy⟩, ih.mpr ⟨u, by simpa using hu, hall, hz⟩⟩

open Parse

/-- Items in a row match the texts of a language, and no way to match is cut off. -/
structure Matches (items : List Regex) (L : Language CodePoint) : Prop where
  plain : (inRow items).isPlain = true
  reaches : ∀ x y, (inRow items).Reaches x y ↔ ∃ u ∈ L, x.Passes u y

namespace Matches

variable {items items' : List Regex} {L M : Language CodePoint}

lemma nil : Matches [] 1 where
  plain := rfl
  reaches x y := by simp [inRow, Regex.Reaches, Language.mem_one, Spot.passes_nil_iff]

lemma single {r : Regex} (hr : r.isPlain = true)
    (h : ∀ x y, r.Reaches x y ↔ ∃ u ∈ L, x.Passes u y) : Matches [r] L where
  plain := by simp [inRow, Regex.isPlain, hr]
  reaches x y := by simp [inRow, Regex.Reaches, h]

lemma reaches_inRow_append {x z : Spot} : (inRow (items ++ items')).Reaches x z ↔
    ∃ y, (inRow items).Reaches x y ∧ (inRow items').Reaches y z := by
  induction items generalizing x with
  | nil => simp [inRow, Regex.Reaches]
  | cons r items ih =>
    show (∃ m, r.Reaches x m ∧ (inRow (items ++ items')).Reaches m z) ↔
      ∃ y, (∃ m, r.Reaches x m ∧ (inRow items).Reaches m y) ∧ (inRow items').Reaches y z
    simp only [ih]
    constructor
    · rintro ⟨m, hm, y, hy, hz⟩
      exact ⟨y, ⟨m, hm, hy⟩, hz⟩
    · rintro ⟨y, ⟨m, hm, hy⟩, hz⟩
      exact ⟨m, hm, y, hy, hz⟩

lemma isPlain_inRow : (inRow items).isPlain = items.all Regex.isPlain := by
  induction items with
  | nil => rfl
  | cons r items ih =>
    rw [List.all_cons, ← ih]
    rfl

lemma append (h : Matches items L) (h' : Matches items' M) : Matches (items ++ items') (L * M) where
  plain := by
    rw [isPlain_inRow, List.all_append, ← isPlain_inRow, ← isPlain_inRow, h.plain, h'.plain,
      Bool.and_self]
  reaches x z := by
    simp only [reaches_inRow_append, h.reaches, h'.reaches, Language.mem_mul]
    constructor
    · rintro ⟨y, ⟨u, hu, hy⟩, v, hv, hz⟩
      exact ⟨u ++ v, ⟨u, hu, v, hv, rfl⟩, hy.trans hz⟩
    · rintro ⟨_, ⟨u, hu, v, hv, rfl⟩, h⟩
      obtain ⟨y, hy, hz⟩ := Spot.passes_append_iff.mp h
      exact ⟨y, ⟨u, hu, hy⟩, v, hv, hz⟩

lemma text (cs : List Char) :
    Matches (cs.map fun c => .set (.single .exact (CodePoint.ofChar c))) {Text.ofChars cs} := by
  induction cs with
  | nil => exact nil
  | cons c cs ih =>
    have hc : Matches [.set (.single .exact (CodePoint.ofChar c))] {[CodePoint.ofChar c]} := by
      refine single rfl fun x y => ?_
      simp only [Regex.Reaches, contains_single, exists_eq_left]
      refine ⟨fun h => ⟨_, rfl, h⟩, ?_⟩
      rintro ⟨u, hu, h⟩
      exact hu ▸ h
    have htext : ({[CodePoint.ofChar c]} * {Text.ofChars cs} : Language CodePoint) =
        {Text.ofChars (c :: cs)} := Set.image2_singleton
    rw [← htext]
    exact hc.append ih

lemma loop {s : CharSet} {min : Nat} {max : Option Nat} (hmax : max.all (min ≤ ·) = true)
    (hL : ∀ u, u ∈ L ↔ min ≤ u.length ∧ max.all (u.length ≤ ·) = true ∧
      ∀ c ∈ u, s.contains c = true) :
    Matches [.loop (.set s) min max .most] L := by
  refine single (by simp [Regex.isPlain, hmax]) fun x y => ?_
  show (∃ n, min ≤ n ∧ max.all (n ≤ ·) = true ∧ Times (Regex.Reaches (.set s)) n x y) ↔ _
  simp only [times_set_iff, hL]
  constructor
  · rintro ⟨_, hmin, hle, u, rfl, hall, h⟩
    exact ⟨u, ⟨hmin, hle, hall⟩, h⟩
  · rintro ⟨u, ⟨hmin, hle, hall⟩, h⟩
    exact ⟨u.length, hmin, hle, u, rfl, hall, h⟩

lemma optional (h : Matches items L) :
    Matches [.loop (.group (inRow items)) 0 (some 1) .most] (1 + L) := by
  refine single (by simp [Regex.isPlain, h.plain]) fun x y => ?_
  have honce : ∀ n ≤ 1, Times (Regex.Reaches (.group (inRow items))) n x y ↔
      (n = 0 ∧ y = x) ∨ (n = 1 ∧ (inRow items).Reaches x y) := by
    intro n hn
    rcases n with _ | _ | n
    · simp [times_zero_iff]
    · simp [times_succ_iff, times_zero_iff, Regex.Reaches]
    · omega
  show (∃ n, 0 ≤ n ∧ (some 1).all (n ≤ ·) = true ∧ Times _ n x y) ↔ _
  simp only [Option.all_some, decide_eq_true_eq, Language.mem_add, Language.mem_one]
  constructor
  · rintro ⟨n, -, hn, hxy⟩
    rcases (honce n hn).mp hxy with ⟨-, rfl⟩ | ⟨-, hxy⟩
    · exact ⟨[], .inl rfl, .refl y⟩
    · obtain ⟨u, hu, hp⟩ := (h.reaches x y).mp hxy
      exact ⟨u, .inr hu, hp⟩
  · rintro ⟨u, rfl | hu, hp⟩
    · exact ⟨0, Nat.le_refl 0, by omega, (honce 0 (by omega)).mpr
        (.inl ⟨rfl, Spot.passes_nil_iff.mp hp⟩)⟩
    · exact ⟨1, by omega, Nat.le_refl 1, (honce 1 (Nat.le_refl 1)).mpr
        (.inr ⟨rfl, (h.reaches x y).mpr ⟨u, hu, hp⟩⟩)⟩

end Matches

/-- A part of a pattern stands for the texts of a language. -/
def Denotes (cs : List Char) (L : Language CodePoint) : Prop :=
  ∃ toks items, Reads cs toks items ∧ Matches items L

lemma denotes_nil : Denotes [] 1 := ⟨_, _, .nil, .nil⟩

lemma Denotes.append {cs cs' : List Char} {L M : Language CodePoint} (h : Denotes cs L)
    (h' : Denotes cs' M) : Denotes (cs ++ cs') (L * M) := by
  obtain ⟨toks, items, hr, hm⟩ := h
  obtain ⟨toks', items', hr', hm'⟩ := h'
  exact ⟨_, _, hr.append hr', hm.append hm'⟩

lemma Denotes.optional {cs : List Char} {L : Language CodePoint} (h : Denotes cs L) :
    Denotes (['(', '?', ':'] ++ cs ++ [')', '?']) (1 + L) := by
  obtain ⟨toks, items, hr, hm⟩ := h
  exact ⟨_, _, hr.optional, hm.optional⟩

lemma denotes_escapeText (cs : List Char) : Denotes (escapeText cs) {Text.ofChars cs} :=
  ⟨_, _, reads_escapeText cs, .text cs⟩

/-- Four digits of any script. -/
def fourDigits : Language CodePoint := {u | u.length = 4 ∧ ∀ c ∈ u, c.isDigit = true}

def blanks : Language CodePoint := {u | ∀ c ∈ u, c.isBlank = true}

lemma contains_classSet {k : CharClass} {c : CodePoint} :
    (classSet k).contains c = k.holds false c := by
  simp [classSet, CharSet.contains, Member.holds]

lemma denotes_fourDigits : Denotes ['\\', 'd', '\x7b', '4', '\x7d'] fourDigits := by
  refine ⟨_, _, reads_fourDigits, .loop rfl fun u => ?_⟩
  simp only [fourDigits, contains_classSet, CharClass.holds, Option.all_some, decide_eq_true_eq,
    Bool.not_false, Bool.true_or, Bool.true_and]
  exact ⟨fun ⟨hlen, hall⟩ => ⟨by omega, by omega, hall⟩, fun ⟨h1, h2, hall⟩ => ⟨by omega, hall⟩⟩

lemma denotes_blanks : Denotes ['\\', 's', '*'] blanks := by
  refine ⟨_, _, reads_blanks, .loop rfl fun u => ?_⟩
  have hblank : ∀ c, (classSet .blank).contains c = c.isBlank := fun c => by
    simp [contains_classSet, CharClass.holds]
  simp only [hblank, Option.all_none, Nat.zero_le, true_and]
  rfl

/-- Whether the pattern matches at the start of the text. -/
def begins (host : Host) (pattern : List Char) (t : Text) : Except Invalid Bool :=
  (Regex.parse host.charNamed? pattern).map fun r => (r.run some (Place.start t)).isSome

/-- **A pattern matches at the start of a text** just if the text starts with one that the pattern
denotes. -/
theorem begins_iff {cs : List Char} {L : Language CodePoint} (h : Denotes cs L) (host : Host)
    (t : Text) : ∃ found, begins host cs t = .ok found ∧ (found = true ↔ ∃ u ∈ L, u <+: t) := by
  obtain ⟨toks, items, hr, hm⟩ := h
  refine ⟨_, by rw [begins, Regex.parse_eq hr host.charNamed?]; rfl, ?_⟩
  rw [Regex.finds_run hm.plain some (fun _ => rfl)]
  simp only [hm.reaches, Option.isSome_some, and_true]
  constructor
  · rintro ⟨y, u, hu, hp⟩
    exact ⟨u, hu, y.after, hp.1.symm⟩
  · rintro ⟨u, hu, v, rfl⟩
    exact ⟨⟨u.reverse, v⟩, u, hu, rfl, (List.append_nil _).symm⟩

end Letterhead.Pattern
