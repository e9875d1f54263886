import Letterhead.Proofs.Header.Agreement
import Letterhead.Proofs.Text.LineEnd

/-!
A file whose window holds no header material just gets a header: nothing goes, and what comes in
is the header with an empty line below it. The window is then the plain one, since no notice of
others is found that could make it grow.
-/

namespace Letterhead.Settings

variable (s : Settings)

/-! ### The body of a file -/

/-- Lines that belong to no header, neither alone nor as a comment. -/
structure IsBody (es : List Entry) : Prop where
  content : ∀ e ∈ es, e.2 = .content
  no_comment : ∀ closer a b, ¬ s.IsHeaderComment closer es a b

section IsBody

variable {s} {e : Entry} {es es' : List Entry}

lemma IsHeaderComment.append_right {closer : Text} {a b : Nat}
    (h : s.IsHeaderComment closer es a b) (es' : List Entry) :
    s.IsHeaderComment closer (es ++ es') a b := by
  have hlen : b < es.length := by
    obtain ⟨e, he, -⟩ := h.closed
    exact (List.getElem?_eq_some_iff.mp he).1
  have hget : ∀ j ≤ b, (es ++ es')[j]? = es[j]? := fun j hj =>
    List.getElem?_append_left (by omega)
  obtain ⟨hopen, hlt, hend, hfirst, hmat, j, h1, h2, hf⟩ := h
  refine ⟨by rwa [hget a (by omega)], hlt, by rwa [hget b (by omega)], fun j h1 h2 => ?_,
    fun j h1 h2 => ?_, j, h1, h2, by rwa [hget j h2]⟩
  · rw [hget j (by omega)]
    exact hfirst j h1 h2
  · rw [hget j h2]
    exact hmat j h1 h2

lemma IsBody.of_append (h : s.IsBody (es ++ es')) : s.IsBody es :=
  ⟨fun e he => h.content e (List.mem_append_left _ he),
    fun closer a b hc => h.no_comment closer a b (hc.append_right es')⟩

lemma IsBody.of_cons (h : s.IsBody (e :: es)) : s.IsBody es :=
  ⟨fun e he => h.content e (List.mem_cons_of_mem _ he),
    fun closer _ _ hc => h.no_comment closer _ _ ((s.isHeaderComment_append (p := [e])).mpr hc)⟩

lemma isBody_of_closerOf? (hk : ∀ e ∈ es, e.2 = .content)
    (ho : ∀ e ∈ es, CommentStyle.closerOf? e.1 = none) : s.IsBody es := by
  refine ⟨hk, fun closer a b hc => ?_⟩
  obtain ⟨e, he, hopen⟩ := hc.opens
  rw [ho e (List.mem_of_getElem? he)] at hopen
  simp at hopen

lemma survivors_of_isBody (h : s.IsBody es) : s.survivors .copying es = es.map Prod.fst := by
  induction es with
  | nil => rfl
  | cons e es ih =>
    obtain ⟨l, k⟩ := e
    obtain rfl : k = .content := h.content (l, k) List.mem_cons_self
    have hnone : s.removedBlock? l es = none :=
      (s.removedBlock?_eq_none_iff (k := .content)).mpr fun closer b => h.no_comment closer 0 b
    rw [s.survivors_cons (by simp), if_neg (by simp), hnone]
    simp only [removes, Bool.false_eq_true, if_false]
    rw [ih h.of_cons, List.map_cons]

end IsBody

/-! ### A window that does not grow -/

/-- So many lines, or all of them. -/
def firstOf : Option Nat → List Text → List Text
  | none, ls => ls
  | some n, ls => ls.take n

/-- What is left of a window of so many lines when some lines are seen. -/
def roomFor (height seen : Nat) : Option Nat := (s.windowSize height).map (· - seen)

lemma firstOf_roomFor_cons (height seen : Nat) (l : Text) (ls : List Text) :
    firstOf (s.roomFor height seen) (l :: ls) =
      if (s.windowSize height).all (seen < ·) then l :: firstOf (s.roomFor height (seen + 1)) ls
      else [] := by
  unfold roomFor
  cases s.windowSize height with
  | none => rfl
  | some size =>
    simp only [Option.map_some, firstOf, Option.all_some, decide_eq_true_eq]
    split
    · rw [show size - seen = size - (seen + 1) + 1 by omega, List.take_succ_cons]
    · rw [show size - seen = 0 by omega, List.take_zero]

lemma firstOf_roomFor_mono {height height' : Nat} (h : height ≤ height') (seen : Nat)
    (ls : List Text) :
    firstOf (s.roomFor height seen) ls <+: firstOf (s.roomFor height' seen) ls := by
  unfold roomFor windowSize
  split
  · exact List.prefix_rfl
  · exact List.take_prefix_take_left (Nat.sub_le_sub_right (by omega) seen)

/-- Whatever else a window shows, it begins with the lines of one that does not grow. -/
lemma firstOf_prefix_windowKinds (h : Header) (seen notices : Nat) (ls : List Text) :
    (firstOf (s.roomFor (h.lines.length + notices) seen) ls).map (s.lineKind h) <+:
      s.windowKinds h seen notices ls := by
  induction ls generalizing seen notices with
  | nil =>
    cases hr : s.roomFor (h.lines.length + notices) seen <;> simp [firstOf, windowKinds]
  | cons l ls ih =>
    rw [firstOf_roomFor_cons, windowKinds_cons]
    split
    · rw [List.map_cons, List.prefix_cons_inj]
      refine List.IsPrefix.trans (List.IsPrefix.map _ ?_) (ih _ _)
      exact s.firstOf_roomFor_mono (by split <;> omega) _ _
    · exact List.prefix_rfl

lemma windowKinds_eq_firstOf {h : Header} {seen notices : Nat} {ls : List Text}
    (hn : s.thirdParty.action = .below →
      ∀ l ∈ firstOf (s.roomFor (h.lines.length + notices) seen) ls,
        s.lineKind h l ≠ .thirdParty) :
    s.windowKinds h seen notices ls =
      (firstOf (s.roomFor (h.lines.length + notices) seen) ls).map (s.lineKind h) := by
  induction ls generalizing seen with
  | nil =>
    cases hr : s.roomFor (h.lines.length + notices) seen <;> simp [firstOf, windowKinds]
  | cons l ls ih =>
    rw [firstOf_roomFor_cons] at hn ⊢
    rw [windowKinds_cons]
    split
    · next hroom =>
      rw [if_pos hroom] at hn
      rw [if_neg fun hc => hn hc.1 l List.mem_cons_self hc.2, List.map_cons,
        ih fun hb x hx => hn hb x (List.mem_cons_of_mem _ hx)]
    · rfl

/-! ### A header is added -/

section Addition

variable {s} {ls : List Text} {ext filename : String} {e : LineEnd} {sc : Scan}

/-- The file with a header at a place, and an empty line below it. -/
def withHeader (h : Header) (o : Nat) (ls : List Text) (e : LineEnd) : List Text :=
  ls.take o ++ (h.lines ++ [[]]).map (· ++ e.tail) ++ ls.drop o

/-- A file looked at, in whose window stands but the body, from the offset on. -/
structure OnlyBody (s : Settings) (ls : List Text) (ext filename : String) (sc : Scan) :
    Prop where
  inspect : s.inspect ls ext filename = .ok sc
  body : s.IsBody (s.windowEntries sc ls)
  starts : ∃ l ∈ ls[sc.offset]?, l.isBlank = false

namespace OnlyBody

lemma kinds (h : s.OnlyBody ls ext filename sc) : ∀ k ∈ sc.kinds, k = .content := by
  rw [s.kinds_eq_map_window h.inspect]
  intro k hk
  obtain ⟨l, hl, rfl⟩ := List.mem_map.mp hk
  exact h.body.content _ (List.mem_map_of_mem hl)

lemma isCorrect (h : s.OnlyBody ls ext filename sc) : sc.isCorrect = false := by
  rw [← Bool.not_eq_true, Scan.isCorrect_iff]
  exact fun hc => absurd (h.kinds _ hc.1) (by decide)

lemma notices (h : s.OnlyBody ls ext filename sc) : sc.notices ls = [] := by
  rw [s.notices_eq_filter h.inspect, List.filter_eq_nil_iff]
  intro l hl
  have := h.body.content _ (List.mem_map_of_mem hl)
  simp only at this
  simp [this]

lemma inserted (h : s.OnlyBody ls ext filename sc) (e : LineEnd) :
    s.inserted sc ls e = headerLines sc e := by
  rw [Settings.inserted, h.notices]
  cases s.thirdParty.action <;> simp [headerLines]

/-- **A header is added** and nothing else is done. -/
lemma rebuild (h : s.OnlyBody ls ext filename sc) (e : LineEnd) :
    s.rebuild sc ls e = withHeader sc.header sc.offset ls e := by
  have hseparator : separator sc ls e = [e.tail] := by
    obtain ⟨l, hl, hb⟩ := h.starts
    rw [separator, Option.mem_def.mp hl]
    simp [hb]
  rw [Settings.rebuild, h.inserted, hseparator, s.zip_kinds h.inspect]
  have hstay := survivors_of_isBody h.body
  rw [map_fst_windowEntries] at hstay
  rw [← windowEntries, hstay, withHeader, headerLines, List.map_append,
    List.append_assoc _ (sc.window ls), ← drop_offset_eq]
  simp

end OnlyBody

lemma normalForm_of_onlyBody {t : Text} (hg : s.isGenerated (Lines.ofText t).all = false)
    (h : s.OnlyBody (Lines.ofText t).all ext filename sc) (hd : sc.header.IsDistinct) :
    s.normalForm t ext filename =
      .ok (Lines.join (withHeader sc.header sc.offset (Lines.ofText t).all (Lines.ofText t).lineEnd)
        (Lines.ofText t).ended) := by
  rw [s.normalForm_of_incorrect hg h.inspect hd h.isCorrect, h.rebuild]

lemma ofText_withHeader {t : Text} (h : s.OnlyBody (Lines.ofText t).all ext filename sc)
    {header : Header} (hs : ∀ l ∈ header.lines, Lines.IsUnended l) :
    Lines.ofText (Lines.join (withHeader header sc.offset (Lines.ofText t).all
        (Lines.ofText t).lineEnd) (Lines.ofText t).ended) =
      ⟨withHeader header sc.offset (Lines.ofText t).all (Lines.ofText t).lineEnd,
        (Lines.ofText t).lineEnd, (Lines.ofText t).ended⟩ := by
  refine Lines.ofText_insert (List.take_append_drop _ _).symm ?_ ?_
  · obtain ⟨l, hl, hb⟩ := h.starts
    refine ⟨l, ?_, by rintro rfl; simp at hb⟩
    obtain ⟨hlt, rfl⟩ := List.getElem?_eq_some_iff.mp hl
    rw [List.mem_iff_getElem]
    exact ⟨0, by rw [List.length_drop]; omega, by simp⟩
  · intro l hl
    rcases List.mem_append.mp hl with hl | hl
    · exact hs l hl
    · obtain rfl : l = [] := by simpa using hl
      exact ⟨by simp, by simp⟩

end Addition

end Letterhead.Settings
