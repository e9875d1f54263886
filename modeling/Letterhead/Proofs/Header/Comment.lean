import Mathlib.Data.List.Infix
import Letterhead.Header.Render
import Letterhead.Proofs.Text.Part
import Letterhead.Proofs.Text.Trim

/-!
On which side of a comment a line starts.

A text is read from left to right, as one pass over its characters: outside a comment the opening
mark is looked for, inside one the closing mark, and a mark is read as a whole. No mark has a line
feed, so lines are read one by one. A header with no closing mark in its text leaves no comment
open, whether one was open before it or not.
-/

namespace Letterhead

/-- The marks between which a comment stands. -/
structure CommentMarks where
  opening : Text
  closing : Text

namespace CommentStyle

def htmlMarks : CommentMarks := ⟨htmlOpen, htmlClose⟩

def blockMarks : CommentMarks := ⟨"/*", "*/"⟩

/-- The marks of comments that may span lines. -/
def marks? : CommentStyle → Option CommentMarks
  | html => some htmlMarks
  | block => some blockMarks
  | line _ => none

end CommentStyle

namespace CommentMarks

variable (m : CommentMarks)

/-- The mark that is looked for. -/
def next (inside : Bool) : Text := if inside then m.closing else m.opening

/-- Reads on, `skip` characters of a mark still to come, and tells whether a comment is open at
the end. -/
def read : (inside : Bool) → (skip : Nat) → Text → Bool
  | inside, _, [] => inside
  | inside, skip + 1, _ :: t => read inside skip t
  | inside, 0, c :: t =>
    if (m.next inside).isPrefixOf (c :: t) then read (!inside) ((m.next inside).length - 1) t
    else read inside 0 t

/-- A comment is open behind a line, given whether one is open before it. -/
def readLine (inside : Bool) (l : Text) : Bool := m.read inside 0 l

def readLines (inside : Bool) (ls : List Text) : Bool := ls.foldl m.readLine inside

/-- A comment is open where a line starts, in a file that is read from a line `start` on. -/
def insideAt (start : Nat) (ls : List Text) (i : Nat) : Bool :=
  m.readLines false ((ls.take i).drop start)

@[simp] lemma readLines_nil (inside : Bool) : m.readLines inside [] = inside := rfl
@[simp] lemma readLines_cons (inside : Bool) (l : Text) (ls : List Text) :
    m.readLines inside (l :: ls) = m.readLines (m.readLine inside l) ls := rfl
lemma readLines_append (inside : Bool) (ls ks : List Text) :
    m.readLines inside (ls ++ ks) = m.readLines (m.readLines inside ls) ks := by
  simp [readLines, List.foldl_append]

lemma insideAt_succ {start i : Nat} {ls : List Text} (hs : start ≤ i) (hi : i < ls.length) :
    m.insideAt start ls (i + 1) = m.readLine (m.insideAt start ls i) (ls.getD i []) := by
  unfold insideAt
  rw [List.take_add_one, List.getElem?_eq_getElem hi,
    List.drop_append_of_le_length (by rw [List.length_take]; omega), readLines_append]
  simp [List.getD_eq_getElem?_getD, List.getElem?_eq_getElem hi]

lemma insideAt_append {start j : Nat} {ls ks rest : List Text} (hs : start ≤ ls.length)
    (hj : j ≤ ks.length) :
    m.insideAt start (ls ++ ks ++ rest) (ls.length + j) =
      m.readLines (m.readLines false (ls.drop start)) (ks.take j) := by
  unfold insideAt
  rw [List.append_assoc, List.take_append, List.take_of_length_le (by omega),
    Nat.add_sub_cancel_left, List.take_append_of_le_length hj, List.drop_append_of_le_length hs,
    readLines_append]

/-! ### Text without the mark that is looked for -/

lemma read_append (inside : Bool) (u v : Text)
    (h : ∀ w, w ≠ [] → w <:+ u → ¬ m.next inside <+: w ++ v) :
    m.read inside 0 (u ++ v) = m.read inside 0 v := by
  induction u with
  | nil => rfl
  | cons c u ih =>
    have hc : (m.next inside).isPrefixOf (c :: (u ++ v)) = false := by
      rw [← Bool.not_eq_true, List.isPrefixOf_iff_prefix]
      exact h (c :: u) (by simp) (List.suffix_refl _)
    rw [List.cons_append, read, hc, if_neg (by simp)]
    exact ih fun w hw hs => h w hw (hs.trans (List.suffix_cons c u))

lemma readLine_blank {inside : Bool} {l : Text} (hl : l.isBlank = true)
    (hm : ∃ c t, m.next inside = c :: t ∧ c.isBlank = false) : m.readLine inside l = inside := by
  obtain ⟨c, t, hm, hc⟩ := hm
  have hread := m.read_append inside l [] ?_
  · rw [List.append_nil] at hread
    exact hread
  · intro w hw hs hpre
    rw [hm, List.append_nil] at hpre
    have hmem : c ∈ l := hs.subset (hpre.subset List.mem_cons_self)
    have := List.all_eq_true.mp hl c hmem
    rw [hc] at this
    simp at this

end CommentMarks

/-! ### Marks and blanks -/

namespace Text

lemma suffix_append_cons {c : CodePoint} {w x t : Text} (h : w <:+ x ++ c :: t) :
    w <:+ t ∨ ∃ y, y <:+ x ∧ w = y ++ c :: t := by
  induction x with
  | nil =>
    rcases List.suffix_cons_iff.mp h with rfl | h
    · exact Or.inr ⟨[], List.suffix_refl _, rfl⟩
    · exact Or.inl h
  | cons d x ih =>
    rcases List.suffix_cons_iff.mp h with rfl | h
    · exact Or.inr ⟨d :: x, List.suffix_refl _, rfl⟩
    · rcases ih h with h | ⟨y, hy, rfl⟩
      · exact Or.inl h
      · exact Or.inr ⟨y, hy.trans (List.suffix_cons d x), rfl⟩

/-- A mark begins nowhere in a text behind some other text, if it has no part in either and not
the character between them. -/
lemma not_prefix_of_suffix {c : CodePoint} {mark x t w : Text} (hc : c ∉ mark)
    (hx : ∀ y ∈ x.tails, ¬ mark <+: y) (ht : hasPart mark t = false)
    (hw : w <:+ x ++ c :: t) : ¬ mark <+: w := by
  intro hpre
  rcases suffix_append_cons hw with h | ⟨y, hy, rfl⟩
  · have := hasPart_iff.mpr (hpre.isInfix.trans h.isInfix)
    rw [ht] at this
    simp at this
  · exact hx y ((List.mem_tails _ _).mpr hy) (prefix_of_prefix_append_cons hc hpre)

end Text

/-! ### The header leaves no comment open -/

namespace CommentStyle

lemma readLine_html (inside : Bool) (ext : String) {t : Text}
    (ht : Text.hasPart htmlClose t = false) (e : LineEnd) :
    htmlMarks.readLine inside (wrap html ext t ++ e.tail) = false := by
  -- inside a comment, nothing closes it up to the mark at the end
  have hinside : ∀ x : Text, (∀ y ∈ x.tails, ¬ Text.ofString htmlClose <+: y) →
      htmlMarks.read true 0 (x ++ CodePoint.ofChar ' ' :: (t ++ [CodePoint.ofChar ' ']) ++
        (Text.ofString htmlClose ++ e.tail)) = false := by
    intro x hx
    rw [htmlMarks.read_append]
    · cases e <;> decide
    · intro w hw hs hpre
      rw [show x ++ CodePoint.ofChar ' ' :: (t ++ [CodePoint.ofChar ' ']) =
        (x ++ CodePoint.ofChar ' ' :: t) ++ [CodePoint.ofChar ' '] by simp] at hs
      rcases List.suffix_concat_iff.mp hs with rfl | ⟨w, rfl, hs'⟩
      · exact hw rfl
      · rw [List.append_assoc, List.singleton_append] at hpre
        have hblank : CodePoint.ofChar ' ' ∉ Text.ofString htmlClose := by decide
        exact Text.not_prefix_of_suffix hblank hx ht hs'
          (Text.prefix_of_prefix_append_cons hblank hpre)
  have hline : wrap html ext t ++ e.tail = Text.ofString htmlOpen ++
      CodePoint.ofChar ' ' :: (t ++ [CodePoint.ofChar ' ']) ++
        (Text.ofString htmlClose ++ e.tail) := by
    simp [wrap]
  rw [CommentMarks.readLine, hline]
  cases inside with
  | true => exact hinside (Text.ofString htmlOpen) (by decide)
  | false => exact hinside [] (by decide)

lemma readLine_block (ext : String) {t : Text} (ht : Text.hasPart blockMarks.closing t = false)
    (e : LineEnd) : blockMarks.readLine true (wrap block ext t ++ e.tail) = true := by
  have hline : wrap block ext t ++ e.tail =
      ([CodePoint.ofChar ' ', CodePoint.ofChar '*'] ++ CodePoint.ofChar ' ' :: t) ++ e.tail := rfl
  rw [CommentMarks.readLine, hline, blockMarks.read_append]
  · cases e <;> decide
  · intro w hw hs hpre
    refine Text.not_prefix_of_suffix (by decide) (by decide) ht hs ?_
    cases e with
    | lf => rwa [LineEnd.tail, List.append_nil] at hpre
    | crlf => exact Text.prefix_of_prefix_append_cons (by decide) hpre

/-- **A header leaves no comment open**, and closes one that is open before it, if its texts do
not have the closing mark. -/
theorem readLines_enclose {style : CommentStyle} {m : CommentMarks} (hm : style.marks? = some m)
    (inside : Bool) (ext : String) {ts : List Text} (hne : ts ≠ [])
    (ht : ∀ t ∈ ts, Text.hasPart m.closing t = false) (e : LineEnd) :
    m.readLines inside ((style.enclose (ts.map (style.wrap ext))).map (· ++ e.tail)) = false := by
  cases style with
  | line marker => simp [marks?] at hm
  | html =>
    obtain rfl : htmlMarks = m := by simpa [marks?] using hm
    induction ts generalizing inside with
    | nil => exact absurd rfl hne
    | cons t ts ih =>
      have h1 := readLine_html inside ext (ht t List.mem_cons_self) e
      rcases ts with _ | ⟨u, us⟩
      · exact h1
      · have h2 := ih (htmlMarks.readLine inside (wrap html ext t ++ e.tail)) (by simp)
          fun v hv => ht v (List.mem_cons_of_mem _ hv)
        exact h2
  | block =>
    obtain rfl : blockMarks = m := by simpa [marks?] using hm
    have hopen : blockMarks.readLine inside (Text.ofString blockOpen ++ e.tail) = true := by
      cases inside <;> cases e <;> decide
    have hclose : blockMarks.readLine true (Text.ofString blockClose ++ e.tail) = false := by
      cases e <;> decide
    have htext :
        blockMarks.readLines true ((ts.map (wrap block ext)).map (· ++ e.tail)) = true := by
      clear hne
      induction ts with
      | nil => rfl
      | cons t ts ih =>
        rw [List.map_cons, List.map_cons, CommentMarks.readLines_cons,
          readLine_block ext (ht t List.mem_cons_self) e]
        exact ih fun v hv => ht v (List.mem_cons_of_mem _ hv)
    rw [enclose, List.cons_append, List.map_cons, List.map_append, CommentMarks.readLines_cons,
      hopen, CommentMarks.readLines_append, htext]
    exact hclose

lemma next_not_blank {style : CommentStyle} {m : CommentMarks} (hm : style.marks? = some m)
    (inside : Bool) : ∃ c t, m.next inside = c :: t ∧ c.isBlank = false := by
  cases style with
  | line marker => simp [marks?] at hm
  | html =>
    obtain rfl : htmlMarks = m := by simpa [marks?] using hm
    cases inside <;> exact ⟨_, _, rfl, by decide⟩
  | block =>
    obtain rfl : blockMarks = m := by simpa [marks?] using hm
    cases inside <;> exact ⟨_, _, rfl, by decide⟩

/-! ### The characters of a comment -/

lemma marker_ofMarker (m : String) : (ofMarker m).marker = m := by
  unfold ofMarker
  split
  · next h => exact h.symm
  · split
    · next h => exact h.symm
    · rfl

/-- The characters of the built-in styles. -/
def builtIn : Text := "#<!-->/* \""

section BuiltIn

variable {s : Settings} {style : CommentStyle} {ext : String} {p : CodePoint → Prop}
  (hbuiltIn : ∀ c ∈ builtIn, p c)

include hbuiltIn

lemma forall_mem_marker (hstyles : ∀ m ∈ s.files.commentStyles, ∀ c ∈ Text.ofString m.2, p c) :
    ∀ c ∈ Text.ofString (ofExtension s ext).marker, p c := by
  unfold ofExtension
  split
  · next m hm =>
    rw [marker_ofMarker]
    obtain ⟨hlookup, -⟩ := Option.filter_eq_some_iff.mp hm
    obtain ⟨front, rest, heq, -⟩ := List.lookup_eq_some_iff.mp hlookup
    exact hstyles (Settings.extensionKey ext, m) (by simp [heq])
  · intro c hc
    refine hbuiltIn c ?_
    unfold usual at hc
    split at hc
    · decide +revert
    · split at hc <;> decide +revert

lemma forall_mem_wrap (hmarker : ∀ c ∈ Text.ofString style.marker, p c) {t : Text}
    (ht : ∀ c ∈ t, p c) : ∀ c ∈ style.wrap ext t, p c := by
  have hblank : p (CodePoint.ofChar ' ') := hbuiltIn _ (by decide)
  have hquote : p (CodePoint.ofChar '"') := hbuiltIn _ (by decide)
  cases style with
  | line m =>
    have hquoted : ∀ c ∈ if isYaml ext && t.any (·.is ':') then
        CodePoint.ofChar '"' :: t ++ [CodePoint.ofChar '"'] else t, p c := by
      split
      · simpa [or_imp, forall_and] using ⟨hquote, ht, hquote⟩
      · exact ht
    exact List.forall_mem_append.mpr ⟨hmarker, List.forall_mem_cons.mpr ⟨hblank, hquoted⟩⟩
  | html =>
    have hclose : ∀ c ∈ Text.ofString htmlClose, p c := fun c hc => hbuiltIn c (by decide +revert)
    simpa [wrap, or_imp, forall_and] using ⟨hmarker, hblank, ht, hblank, hclose⟩
  | block =>
    have hline : ∀ c ∈ Text.ofString blockLine, p c := fun c hc => hbuiltIn c (by decide +revert)
    exact List.forall_mem_append.mpr ⟨hline, ht⟩

end BuiltIn

end CommentStyle

namespace Settings

variable {s : Settings} {ext : String} {h : Header}

/-- The text stands in a line of the header. -/
def IsHeaderText (s : Settings) (t : Text) : Prop :=
  s.copyrightText = .ok t ∨ s.license.enabled = true ∧ s.licenseText = .ok t

lemma eq_of_isHeaderText {t c : Text} (hc : s.copyrightText = .ok c)
    (hl : s.license.enabled = false) (ht : s.IsHeaderText t) : t = c := by
  rcases ht with ht | ⟨ht, -⟩
  · exact Except.ok.inj (ht.symm.trans hc)
  · rw [hl] at ht
    cases ht

lemma lines_of_render (hr : Header.render s ext = .ok h) :
    ∃ ts, ts ≠ [] ∧ (∀ t ∈ ts, s.IsHeaderText t) ∧
      h.lines = (CommentStyle.ofExtension s ext).enclose
        (ts.map ((CommentStyle.ofExtension s ext).wrap ext)) := by
  unfold Header.render copyrightLine licenseLine wrap at hr
  cases hc : s.copyrightText with
  | error err => simp [hc, bind, Except.bind] at hr
  | ok c =>
    cases hen : s.license.enabled with
    | false =>
      simp only [hc, hen, bind, Except.bind, pure, Except.pure, Bool.false_eq_true, if_false,
        Except.ok.injEq] at hr
      subst hr
      exact ⟨[c], by simp, by simp [IsHeaderText, hc], rfl⟩
    | true =>
      cases hl : s.licenseText with
      | error err => simp [hc, hen, hl, bind, Except.bind, pure, Except.pure] at hr
      | ok l =>
        simp only [hc, hen, hl, bind, Except.bind, pure, Except.pure, if_true,
          Except.ok.injEq] at hr
        subst hr
        exact ⟨[c, l], by simp, by simp [IsHeaderText, hc, hen, hl], rfl⟩

lemma forall_mem_of_render {p : CodePoint → Prop} (hbuiltIn : ∀ c ∈ CommentStyle.builtIn, p c)
    (hstyles : ∀ m ∈ s.files.commentStyles, ∀ c ∈ Text.ofString m.2, p c)
    (htexts : ∀ t, s.IsHeaderText t → ∀ c ∈ t, p c) (hr : Header.render s ext = .ok h) :
    ∀ l ∈ h.lines, ∀ c ∈ l, p c := by
  obtain ⟨ts, -, hts, hlines⟩ := lines_of_render hr
  have hwrapped : ∀ l ∈ ts.map ((CommentStyle.ofExtension s ext).wrap ext), ∀ c ∈ l, p c := by
    simp only [List.forall_mem_map]
    exact fun t ht => CommentStyle.forall_mem_wrap hbuiltIn
      (CommentStyle.forall_mem_marker hbuiltIn hstyles) (htexts t (hts t ht))
  rw [hlines]
  unfold CommentStyle.enclose
  split
  · have hopen : ∀ c ∈ Text.ofString CommentStyle.blockOpen, p c := fun c hc =>
      hbuiltIn c (by decide +revert)
    have hclose : ∀ c ∈ Text.ofString CommentStyle.blockClose, p c := fun c hc =>
      hbuiltIn c (by decide +revert)
    exact List.forall_mem_append.mpr ⟨List.forall_mem_cons.mpr ⟨hopen, hwrapped⟩,
      List.forall_mem_singleton.mpr hclose⟩
  · exact hwrapped

lemma readLines_header {m : CommentMarks} (hr : Header.render s ext = .ok h)
    (hm : (CommentStyle.ofExtension s ext).marks? = some m)
    (ht : ∀ t, s.IsHeaderText t → Text.hasPart m.closing t = false) (inside : Bool)
    (e : LineEnd) : m.readLines inside (h.lines.map (· ++ e.tail)) = false := by
  obtain ⟨ts, hne, hts, hlines⟩ := lines_of_render hr
  rw [hlines]
  exact CommentStyle.readLines_enclose hm inside ext hne (fun t h => ht t (hts t h)) e

end Settings

end Letterhead
