import Mathlib.Data.List.TakeWhile
import Letterhead.Header.Placement

/-!
Where a header may start depends on nothing behind that place: a file that agrees with another one
up to its offset, and goes on with a line that no rule of placement looks for, has the same offset.
-/

namespace Letterhead.Placement

/-- One of the lines that may stand above a header. -/
def isPlacementLine (l : Text) : Bool :=
  isShebang l || isXmlDeclaration l || isFence l || isHeading l

/-- A list does not begin with a line that may stand above a header. -/
def StartsPlain (r : List Text) : Prop := ∀ l ∈ r.head?, isPlacementLine l = false

instance (r : List Text) : Decidable (StartsPlain r) :=
  inferInstanceAs (Decidable (∀ l ∈ r.head?, isPlacementLine l = false))

/-- A header of the file would be placed below such a line, by the rules in force. -/
def goesAbove (s : Settings) (filename : String) (l : Text) : Bool :=
  isShebang l || (s.files.exceptions.xmlDeclaration && isXmlDeclaration l) ||
    (belowFrontMatter s filename && isFence l) ||
    (s.files.exceptions.markdownHeading && isMarkdown filename && isHeading l)

/-- A list does not begin with a line below which a header of the file would be placed. -/
def KeepsOffset (s : Settings) (filename : String) (r : List Text) : Prop :=
  ∀ l ∈ r.head?, goesAbove s filename l = false

instance (s : Settings) (filename : String) (r : List Text) :
    Decidable (KeepsOffset s filename r) :=
  inferInstanceAs (Decidable (∀ l ∈ r.head?, goesAbove s filename l = false))

lemma StartsPlain.keepsOffset {r : List Text} (hr : StartsPlain r) (s : Settings)
    (filename : String) : KeepsOffset s filename r := by
  intro l hl
  have h := hr l hl
  simp only [isPlacementLine, Bool.or_eq_false_iff] at h
  simp [goesAbove, h]

/-- One line, if the list starts with such a line. -/
def oneIf (p : Text → Bool) (ls : List Text) : Nat := if firstIs p ls then 1 else 0

lemma oneIf_le_length (p : Text → Bool) (ls : List Text) : oneIf p ls ≤ ls.length := by
  cases ls with
  | nil => simp [oneIf, firstIs]
  | cons l ls => unfold oneIf; split <;> simp

lemma throughFence_le_length {ls : List Text} {k : Nat} (h : throughFence ls = some k) :
    k ≤ ls.length := by
  induction ls generalizing k with
  | nil => simp [throughFence] at h
  | cons l ls ih =>
    unfold throughFence at h
    split at h
    · simp only [Option.some.injEq] at h; simp [← h]
    · obtain ⟨j, hj, rfl⟩ := Option.map_eq_some_iff.mp h
      simpa using ih hj

lemma frontMatterLength_le_length (ls : List Text) : frontMatterLength ls ≤ ls.length := by
  cases ls with
  | nil => simp [frontMatterLength]
  | cons l ls =>
    by_cases hl : isFence l = true
    · cases h : throughFence ls with
      | none => simp [frontMatterLength, hl, h]
      | some k =>
        have hk := throughFence_le_length h
        simpa [frontMatterLength, hl, h] using hk
    · simp [frontMatterLength, hl]

/-! ### What is read does not change -/

lemma oneIf_take_append {p : Text → Bool} {ls r : List Text} {n : Nat} (hn : oneIf p ls ≤ n)
    (hlen : n ≤ ls.length) (hr : n = 0 → firstIs p r = false) :
    oneIf p (ls.take n ++ r) = oneIf p ls := by
  rcases n with _ | n
  · have h0 : oneIf p r = 0 := by simp [oneIf, hr rfl]
    rw [List.take_zero, List.nil_append, h0]
    omega
  · rcases ls with _ | ⟨l, ls⟩
    · simp at hlen
    · rfl

lemma throughFence_take_append {ls r : List Text} {k n : Nat} (h : throughFence ls = some k)
    (hn : k ≤ n) : throughFence (ls.take n ++ r) = some k := by
  induction ls generalizing k n with
  | nil => simp [throughFence] at h
  | cons l ls ih =>
    unfold throughFence at h
    split at h
    · next hl =>
      simp only [Option.some.injEq] at h
      obtain ⟨m, rfl⟩ : ∃ m, n = m + 1 := ⟨n - 1, by omega⟩
      rw [List.take_succ_cons, List.cons_append, throughFence, if_pos hl, h]
    · next hl =>
      obtain ⟨j, hj, rfl⟩ := Option.map_eq_some_iff.mp h
      obtain ⟨m, rfl⟩ : ∃ m, n = m + 1 := ⟨n - 1, by omega⟩
      rw [List.take_succ_cons, List.cons_append, throughFence, if_neg hl, ih hj (by omega)]
      rfl

/-- A front matter that is closed is read to its end only; one that is not must not be kept, or
what follows could close it. -/
lemma frontMatterLength_take_append {ls r : List Text} {n : Nat}
    (hn : frontMatterLength ls ≤ n) (hlen : n ≤ ls.length)
    (hopen : n = 0 ∨ firstIs isFence ls = false ∨ 0 < frontMatterLength ls)
    (hr : n = 0 → frontMatterLength r = 0) :
    frontMatterLength (ls.take n ++ r) = frontMatterLength ls := by
  rcases n with _ | n
  · rw [List.take_zero, List.nil_append, hr rfl]
    omega
  · rcases ls with _ | ⟨l, ls⟩
    · simp at hlen
    · rw [List.take_succ_cons, List.cons_append]
      by_cases hl : isFence l = true
      · simp only [frontMatterLength, if_pos hl] at hn hopen ⊢
        cases hk : throughFence ls with
        | none => simp [hk, firstIs, hl] at hopen
        | some k =>
          rw [hk] at hn
          rw [throughFence_take_append hk (by simpa using hn)]
      · simp [frontMatterLength, if_neg hl]

/-! ### The offset, step by step -/

variable (s : Settings) (ls : List Text) (filename : String)

/-- The line behind a shebang. -/
def afterShebang : Nat := oneIf isShebang ls

/-- The line behind an XML declaration too. -/
def afterDeclaration : Nat :=
  afterShebang ls +
    oneIf (fun l => s.files.exceptions.xmlDeclaration && isXmlDeclaration l)
      (ls.drop (afterShebang ls))

/-- The line behind a front matter too. -/
def afterFrontMatter : Nat :=
  afterDeclaration s ls +
    if belowFrontMatter s filename then frontMatterLength (ls.drop (afterDeclaration s ls)) else 0

lemma firstIs_and (b : Bool) (p : Text → Bool) (xs : List Text) :
    (b && firstIs p xs) = firstIs (fun l => b && p l) xs := by
  cases xs <;> simp [firstIs]

lemma offset_eq :
    offset s ls filename = afterFrontMatter s ls filename +
      oneIf (fun l => s.files.exceptions.markdownHeading && isMarkdown filename && isHeading l)
        (ls.drop (afterFrontMatter s ls filename)) := by
  unfold offset afterFrontMatter afterDeclaration afterShebang oneIf frontMatterEnd
  simp only [firstIs_and]
  split <;> simp_all

lemma afterShebang_le_afterDeclaration : afterShebang ls ≤ afterDeclaration s ls :=
  Nat.le_add_right _ _

lemma afterDeclaration_le_afterFrontMatter :
    afterDeclaration s ls ≤ afterFrontMatter s ls filename :=
  Nat.le_add_right _ _

lemma afterFrontMatter_le_offset :
    afterFrontMatter s ls filename ≤ offset s ls filename := by
  rw [offset_eq]
  exact Nat.le_add_right _ _

lemma afterDeclaration_le_offset : afterDeclaration s ls ≤ offset s ls filename :=
  (afterDeclaration_le_afterFrontMatter s ls filename).trans
    (afterFrontMatter_le_offset s ls filename)

lemma afterShebang_le_offset : afterShebang ls ≤ offset s ls filename :=
  (afterShebang_le_afterDeclaration s ls).trans (afterDeclaration_le_offset s ls filename)

/-- The offset lies within the file. -/
theorem offset_le_length : offset s ls filename ≤ ls.length := by
  have h1 : afterShebang ls ≤ ls.length := oneIf_le_length _ _
  have h2 : afterDeclaration s ls ≤ ls.length := by
    have := oneIf_le_length
      (fun l => s.files.exceptions.xmlDeclaration && isXmlDeclaration l) (ls.drop (afterShebang ls))
    rw [List.length_drop] at this
    unfold afterDeclaration
    omega
  have h3 : afterFrontMatter s ls filename ≤ ls.length := by
    have := frontMatterLength_le_length (ls.drop (afterDeclaration s ls))
    rw [List.length_drop] at this
    unfold afterFrontMatter
    split <;> omega
  have h4 := oneIf_le_length
    (fun l => s.files.exceptions.markdownHeading && isMarkdown filename && isHeading l)
    (ls.drop (afterFrontMatter s ls filename))
  rw [List.length_drop] at h4
  rw [offset_eq]
  omega

lemma isHeading_of_isFence {l : Text} (h : isFence l = true) : isHeading l = false := by
  have ht : l.trim = Text.ofString "---" := by simpa [isFence] using h
  rw [isHeading, ht]
  decide

/-- Nothing is taken behind a front matter that is not closed: its fence is no heading. -/
lemma offset_eq_of_open
    (h1 : firstIs isFence (ls.drop (afterDeclaration s ls)) = true)
    (h2 : frontMatterLength (ls.drop (afterDeclaration s ls)) = 0) :
    offset s ls filename = afterDeclaration s ls := by
  have h3 : afterFrontMatter s ls filename = afterDeclaration s ls := by
    simp [afterFrontMatter, h2]
  rw [offset_eq, h3]
  rcases hx : ls.drop (afterDeclaration s ls) with _ | ⟨l, xs⟩
  · rfl
  · rw [hx] at h1
    simp [oneIf, firstIs, isHeading_of_isFence (show isFence l = true from h1)]

/-- What comes in at the offset is taken by no rule of placement that is still open there: none
that is looked for at the offset, since those before it took all the lines above. -/
structure IsPassedOver (r : List Text) : Prop where
  shebang : offset s ls filename = 0 → firstIs isShebang r = false
  declaration : offset s ls filename = afterShebang ls →
    firstIs (fun l => s.files.exceptions.xmlDeclaration && isXmlDeclaration l) r = false
  /-- A fence is taken only together with one that closes it. -/
  frontMatter : offset s ls filename = afterDeclaration s ls →
    belowFrontMatter s filename = true → frontMatterLength r = 0
  heading : offset s ls filename = afterFrontMatter s ls filename →
    firstIs (fun l => s.files.exceptions.markdownHeading && isMarkdown filename && isHeading l) r =
      false

section TakeAppend

variable {s ls filename} {r : List Text}

lemma length_take_offset : (ls.take (offset s ls filename)).length = offset s ls filename :=
  List.length_take_of_le (offset_le_length s ls filename)

lemma drop_take_append {a : Nat} (ha : a ≤ offset s ls filename) :
    (ls.take (offset s ls filename) ++ r).drop a =
      (ls.drop a).take (offset s ls filename - a) ++ r := by
  rw [List.drop_append_of_le_length (by rwa [length_take_offset]), List.drop_take]

lemma sub_le_length_drop {a : Nat} (ha : a ≤ offset s ls filename) :
    offset s ls filename - a ≤ (ls.drop a).length := by
  have := offset_le_length s ls filename
  rw [List.length_drop]
  omega

lemma afterShebang_take_append (h : offset s ls filename = 0 → firstIs isShebang r = false) :
    afterShebang (ls.take (offset s ls filename) ++ r) = afterShebang ls :=
  oneIf_take_append (afterShebang_le_offset s ls filename) (offset_le_length s ls filename) h

lemma afterDeclaration_take_append
    (h1 : afterShebang (ls.take (offset s ls filename) ++ r) = afterShebang ls)
    (h : offset s ls filename = afterShebang ls →
      firstIs (fun l => s.files.exceptions.xmlDeclaration && isXmlDeclaration l) r = false) :
    afterDeclaration s (ls.take (offset s ls filename) ++ r) = afterDeclaration s ls := by
  have hle := afterShebang_le_offset s ls filename
  have hnext := afterDeclaration_le_offset s ls filename
  unfold afterDeclaration at hnext ⊢
  rw [h1, drop_take_append hle,
    oneIf_take_append (by omega) (sub_le_length_drop hle) fun h0 => h (by omega)]

lemma afterFrontMatter_take_append
    (h2 : afterDeclaration s (ls.take (offset s ls filename) ++ r) = afterDeclaration s ls)
    (h : offset s ls filename = afterDeclaration s ls → belowFrontMatter s filename = true →
      frontMatterLength r = 0) :
    afterFrontMatter s (ls.take (offset s ls filename) ++ r) filename =
      afterFrontMatter s ls filename := by
  have hle := afterDeclaration_le_offset s ls filename
  have hnext := afterFrontMatter_le_offset s ls filename
  unfold afterFrontMatter at hnext ⊢
  rw [h2]
  split
  · next hb =>
    rw [if_pos hb] at hnext
    rw [drop_take_append hle, frontMatterLength_take_append (by omega) (sub_le_length_drop hle) ?_
      fun h0 => h (by omega) hb]
    -- a front matter that is not closed lies behind the offset
    by_cases hf : firstIs isFence (ls.drop (afterDeclaration s ls)) = true
    · rcases Nat.eq_zero_or_pos (frontMatterLength (ls.drop (afterDeclaration s ls)))
        with h0 | h0
      · have := offset_eq_of_open s ls filename hf h0
        exact Or.inl (by omega)
      · exact Or.inr (Or.inr h0)
    · exact Or.inr (Or.inl (by simpa using hf))
  · rfl

/-- **The offset stays** just if what replaces all that stands behind it is passed over: each rule
takes the lines that it took, and none takes one more. -/
theorem offset_take_append_iff :
    offset s (ls.take (offset s ls filename) ++ r) filename = offset s ls filename ↔
      IsPassedOver s ls filename r := by
  have hdrop : (ls.take (offset s ls filename) ++ r).drop (offset s ls filename) = r := by
    rw [drop_take_append (Nat.le_refl _), Nat.sub_self, List.take_zero, List.nil_append]
  constructor
  · intro h
    -- a rule that takes what comes in leads past the offset
    have h1 : offset s ls filename = 0 → firstIs isShebang r = false := by
      intro h0
      have hle := h ▸ afterShebang_le_offset s (ls.take (offset s ls filename) ++ r) filename
      rw [h0, List.take_zero, List.nil_append] at hle
      by_contra hr
      rw [afterShebang, oneIf, if_pos (by simpa using hr)] at hle
      omega
    have e1 := afterShebang_take_append h1
    have h2 : offset s ls filename = afterShebang ls →
        firstIs (fun l => s.files.exceptions.xmlDeclaration && isXmlDeclaration l) r = false := by
      intro h0
      have hle := h ▸ afterDeclaration_le_offset s (ls.take (offset s ls filename) ++ r) filename
      by_contra hr
      rw [afterDeclaration, e1, ← h0, hdrop, oneIf, if_pos (by simpa using hr)] at hle
      omega
    have e2 := afterDeclaration_take_append e1 h2
    have h3 : offset s ls filename = afterDeclaration s ls →
        belowFrontMatter s filename = true → frontMatterLength r = 0 := by
      intro h0 hb
      have hle := h ▸ afterFrontMatter_le_offset s (ls.take (offset s ls filename) ++ r) filename
      rw [afterFrontMatter, e2, ← h0, hdrop, if_pos hb] at hle
      omega
    have e3 := afterFrontMatter_take_append e2 h3
    refine ⟨h1, h2, h3, fun h0 => ?_⟩
    by_contra hr
    rw [offset_eq, e3, ← h0, hdrop, oneIf, if_pos (by simpa using hr)] at h
    omega
  · rintro ⟨h1, h2, h3, h4⟩
    have e3 := afterFrontMatter_take_append
      (afterDeclaration_take_append (afterShebang_take_append h1) h2) h3
    have hle := afterFrontMatter_le_offset s ls filename
    have ho := offset_eq s ls filename
    rw [offset_eq, e3, drop_take_append hle,
      oneIf_take_append (by omega) (sub_le_length_drop hle) fun h0 => h4 (by omega), ← ho]

lemma firstIs_eq_false {p : Text → Bool} (h : ∀ l ∈ r.head?, p l = false) :
    firstIs p r = false := by
  cases r <;> simp_all [firstIs]

lemma KeepsOffset.isPassedOver (hr : KeepsOffset s filename r) : IsPassedOver s ls filename r := by
  simp only [KeepsOffset, goesAbove, Bool.or_eq_false_iff] at hr
  refine ⟨fun _ => firstIs_eq_false fun l hl => (hr l hl).1.1.1,
    fun _ => firstIs_eq_false fun l hl => (hr l hl).1.1.2, fun _ hb => ?_,
    fun _ => firstIs_eq_false fun l hl => (hr l hl).2⟩
  rcases r with _ | ⟨l, r⟩
  · rfl
  · have hl := (hr l rfl).1.2
    rw [hb, Bool.true_and] at hl
    rw [frontMatterLength, if_neg (by simp [hl])]

end TakeAppend

/-- The offset stays when what stands behind it is replaced by lines that start with no line below
which the header would be placed. -/
lemma offset_take_append {r : List Text} (hr : KeepsOffset s filename r) :
    offset s (ls.take (offset s ls filename) ++ r) filename = offset s ls filename :=
  offset_take_append_iff.mpr hr.isPassedOver

/-- **Placement is stable.** The offset lies within the file. It stays when what stands behind it
is replaced, just if that is passed over; so are lines the first of which is none that may stand
above a header, whatever follows them. -/
theorem offset_stays :
    offset s ls filename ≤ ls.length ∧
    (∀ r, offset s (ls.take (offset s ls filename) ++ r) filename = offset s ls filename ↔
      IsPassedOver s ls filename r) ∧
    ∀ x, x ≠ [] → StartsPlain x → ∀ r,
      offset s (ls.take (offset s ls filename) ++ (x ++ r)) filename = offset s ls filename := by
  refine ⟨offset_le_length s ls filename, fun r => offset_take_append_iff, fun x hx hp r => ?_⟩
  have hplain : StartsPlain (x ++ r) := by
    obtain ⟨l, x, rfl⟩ := List.exists_cons_of_ne_nil hx
    exact hp
  exact offset_take_append s ls filename (hplain.keepsOffset s filename)

/-- Settings with all rules of placement in force. -/
def layered : Settings :=
  { Settings.default 2025 with
    files := { Settings.Files.default with
      belowFrontMatter := [".md"]
      exceptions := ⟨true, true⟩ } }

/-- A file with all that may stand above a header. -/
def layeredLines : List Text :=
  ["#!/bin/sh", "<?xml version=\"1.0\"?>", "---", "a: b", "---", "# Title", "text"]

/-- What comes in goes on with lines that would be a front matter of their own. -/
theorem layered_stays :
    StartsPlain ["<!-- Copyright ACME 2025 -->"] ∧ offset layered layeredLines "a.md" = 6 ∧
      offset layered (layeredLines.take 6 ++
        (["<!-- Copyright ACME 2025 -->", "---", "---"] : List Text)) "a.md" = 6 := by
  have hp : StartsPlain ["<!-- Copyright ACME 2025 -->"] := by decide
  have ho : offset layered layeredLines "a.md" = 6 := by decide
  obtain ⟨-, -, h⟩ := offset_stays layered layeredLines "a.md"
  have hx := h ["<!-- Copyright ACME 2025 -->"] (by simp) hp ["---", "---"]
  rw [ho] at hx
  exact ⟨hp, ho, hx⟩

end Letterhead.Placement
