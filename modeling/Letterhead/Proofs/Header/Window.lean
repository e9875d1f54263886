import Mathlib.Data.List.TakeWhile
import Letterhead.Header.Window
import Letterhead.Proofs.Text.Trim
import Letterhead.Proofs.Header.Placement

/-!
What the header window sees: kinds of lines are those of the first lines behind the offset, and a
header that stands at the offset, below notices of others where these belong above it, lies in the
window and is recognized.
-/

namespace Letterhead

/-! ### The lines of a header -/

namespace Header

/-- The lines of a header can be told from blank lines and from each other. -/
structure IsDistinct (h : Header) : Prop where
  copyright : h.copyright.isBlank = false
  license : ∀ l ∈ h.license, l.isBlank = false
  differ : ∀ l ∈ h.license, l.trim ≠ h.copyright.trim

/-- Each line of the header is one line of a file. -/
def IsSingleLine (h : Header) : Prop :=
  ∀ l ∈ h.copyright :: h.license.toList, CodePoint.ofChar '\n' ∉ l

instance (h : Header) : Decidable h.IsSingleLine :=
  inferInstanceAs (Decidable (∀ l ∈ h.copyright :: h.license.toList, CodePoint.ofChar '\n' ∉ l))

variable {h : Header}

lemma lines_cons_eq (h : Header) :
    h.lines = h.copyright :: h.license.toList ∨
      h.lines = Text.ofString CommentStyle.blockOpen :: h.copyright :: h.license.toList ++
        [Text.ofString CommentStyle.blockClose] := by
  unfold lines CommentStyle.enclose
  cases h.style <;> simp

lemma copyright_mem_lines : h.copyright ∈ h.lines := by
  rcases lines_cons_eq h with e | e <;> simp [e]

lemma license_mem_lines {l : Text} (hl : l ∈ h.license) : l ∈ h.lines := by
  rcases lines_cons_eq h with e | e <;> simp [e, Option.mem_def.mp hl]

lemma lines_ne_nil (h : Header) : h.lines ≠ [] := List.ne_nil_of_mem copyright_mem_lines

lemma forall_mem_lines {p : Text → Prop} (htext : ∀ l ∈ h.copyright :: h.license.toList, p l)
    (hopen : p CommentStyle.blockOpen) (hclose : p CommentStyle.blockClose) :
    ∀ l ∈ h.lines, p l := by
  intro l hl
  rcases lines_cons_eq h with e | e
  · exact htext l (e ▸ hl)
  · rw [e, List.mem_append, List.mem_singleton] at hl
    rcases hl with hl | rfl
    · rcases List.mem_cons.mp hl with rfl | hl
      · exact hopen
      · exact htext l hl
    · exact hclose

lemma IsDistinct.not_isBlank (hd : h.IsDistinct) : ∀ l ∈ h.lines, l.isBlank = false := by
  refine forall_mem_lines ?_ (by decide) (by decide)
  simp only [List.mem_cons, Option.mem_toList]
  rintro l (rfl | hl)
  · exact hd.copyright
  · exact hd.license l hl

lemma IsSingleLine.not_mem_lines (hs : h.IsSingleLine) :
    ∀ l ∈ h.lines, CodePoint.ofChar '\n' ∉ l :=
  forall_mem_lines hs (by decide) (by decide)

end Header

namespace Settings

variable (s : Settings) {h : Header}

/-! ### Kinds -/

lemma lineKind_of_trim_eq {l : Text} (hb : h.copyright.isBlank = false)
    (hl : l.trim = h.copyright.trim) : s.lineKind h l = .copyright := by
  simp [lineKind, hl, hb]

lemma lineKind_copyright (hd : h.IsDistinct) (e : LineEnd) :
    s.lineKind h (h.copyright ++ e.tail) = .copyright :=
  s.lineKind_of_trim_eq hd.copyright (LineEnd.trim_append_tail _ e)

lemma lineKind_license (hd : h.IsDistinct) {l : Text} (hl : l ∈ h.license) (e : LineEnd) :
    s.lineKind h (l ++ e.tail) = .license := by
  have hb := hd.license l hl
  have hne := hd.differ l hl
  rw [Option.mem_def] at hl
  simp [lineKind, hb, hne, hl]

/-! ### The window -/

lemma windowSize_all_of_lt {seen height : Nat} (h : seen < height) :
    (s.windowSize height).all (seen < ·) = true := by
  unfold windowSize
  split
  · rfl
  · simp only [Option.all_some, decide_eq_true_eq]
    omega

lemma windowKinds_cons (h : Header) (seen notices : Nat) (l : Text) (ls : List Text) :
    s.windowKinds h seen notices (l :: ls) =
      if (s.windowSize (h.lines.length + notices)).all (seen < ·) then
        s.lineKind h l :: s.windowKinds h (seen + 1)
          (if s.thirdParty.action = .below ∧ s.lineKind h l = .thirdParty then notices + 1
            else notices) ls
      else [] :=
  rfl

lemma windowKinds_eq_map (h : Header) (seen notices : Nat) (ls : List Text) :
    s.windowKinds h seen notices ls =
      (ls.take (s.windowKinds h seen notices ls).length).map (s.lineKind h) := by
  induction ls generalizing seen notices with
  | nil => rfl
  | cons l ls ih =>
    rw [windowKinds_cons]
    split
    · rw [List.length_cons, List.take_succ_cons, List.map_cons, ← ih]
    · rfl

lemma length_windowKinds_le (h : Header) (seen notices : Nat) (ls : List Text) :
    (s.windowKinds h seen notices ls).length ≤ ls.length := by
  induction ls generalizing seen notices with
  | nil => exact Nat.le_refl _
  | cons l ls ih =>
    rw [windowKinds_cons]
    split
    · exact Nat.succ_le_succ (ih _ _)
    · exact Nat.zero_le _

lemma windowKinds_append (h : Header) (seen notices : Nat) (ls rest : List Text)
    (hle : seen + ls.length ≤ h.lines.length + notices) :
    ∃ ks, s.windowKinds h seen notices (ls ++ rest) = ls.map (s.lineKind h) ++ ks := by
  induction ls generalizing seen notices with
  | nil => exact ⟨_, rfl⟩
  | cons l ls ih =>
    rw [List.length_cons] at hle
    rw [List.cons_append, windowKinds_cons, if_pos (s.windowSize_all_of_lt (by omega))]
    obtain ⟨ks, hks⟩ := ih (seen + 1)
      (if s.thirdParty.action = .below ∧ s.lineKind h l = .thirdParty then notices + 1
        else notices) (by split <;> omega)
    exact ⟨ks, by rw [hks]; rfl⟩

lemma windowKinds_notices (h : Header) (hb : s.thirdParty.action = .below) {seen notices : Nat}
    (hs : seen < h.lines.length + notices) {ts : List Text}
    (ht : ∀ t ∈ ts, s.lineKind h t = .thirdParty) (rest : List Text) :
    s.windowKinds h seen notices (ts ++ rest) =
      ts.map (s.lineKind h) ++
        s.windowKinds h (seen + ts.length) (notices + ts.length) rest := by
  induction ts generalizing seen notices with
  | nil => rfl
  | cons t ts ih =>
    obtain ⟨ht1, hts⟩ := List.forall_mem_cons.mp ht
    rw [List.cons_append, windowKinds_cons, if_pos (s.windowSize_all_of_lt hs)]
    simp only [hb, ht1, and_self, if_true]
    rw [ih (by omega) hts, List.map_cons, ht1, List.length_cons, List.cons_append]
    congr 3 <;> omega

/-- A header at the offset, below notices of others where these belong above it, is in the
window. -/
lemma header_in_window (h : Header) (e : LineEnd) {ts : List Text}
    (ht : ts = [] ∨ s.thirdParty.action = .below ∧ ∀ t ∈ ts, s.lineKind h t = .thirdParty)
    (rest : List Text) :
    ∃ ks, s.windowKinds h 0 0 (ts ++ (h.lines.map (· ++ e.tail) ++ rest)) =
      ts.map (s.lineKind h) ++ ((h.lines.map (· ++ e.tail)).map (s.lineKind h) ++ ks) := by
  have hpos : 0 < h.lines.length := List.length_pos_iff.mpr h.lines_ne_nil
  rcases ht with rfl | ⟨hb, ht⟩
  · exact s.windowKinds_append h 0 0 _ rest (by simp)
  · obtain ⟨ks, hks⟩ := s.windowKinds_append h (0 + ts.length) (0 + ts.length)
      (h.lines.map (· ++ e.tail)) rest (by rw [List.length_map]; omega)
    exact ⟨ks, by rw [s.windowKinds_notices h hb (by omega) ht, hks]⟩

/-- **A header at the offset is found**: a file that has it there is correct. -/
theorem isCorrect_of_header (hd : h.IsDistinct) (e : LineEnd) (o : Nat) {ts : List Text}
    (ht : ts = [] ∨ s.thirdParty.action = .below ∧ ∀ t ∈ ts, s.lineKind h t = .thirdParty)
    (rest : List Text) :
    (Scan.mk h o
      (s.windowKinds h 0 0 (ts ++ (h.lines.map (· ++ e.tail) ++ rest)))).isCorrect = true := by
  obtain ⟨ks, hks⟩ := s.header_in_window h e ht rest
  have hin : ∀ l ∈ h.lines, s.lineKind h (l ++ e.tail) ∈
      s.windowKinds h 0 0 (ts ++ (h.lines.map (· ++ e.tail) ++ rest)) := by
    intro l hl
    rw [hks]
    refine List.mem_append_right _ (List.mem_append_left _ (List.mem_map_of_mem ?_))
    exact List.mem_map_of_mem (f := (· ++ e.tail)) hl
  have hc := hin _ Header.copyright_mem_lines
  rw [s.lineKind_copyright hd] at hc
  rw [Scan.isCorrect, Bool.and_eq_true]
  refine ⟨by simpa using hc, ?_⟩
  cases hl : h.license with
  | none => rfl
  | some l =>
    have hm := hin l (Header.license_mem_lines hl)
    rw [s.lineKind_license hd hl] at hm
    simpa using hm

/-! ### The scan of a file -/

variable {ls : List Text} {ext filename : String} {sc : Scan}

lemma inspect_of_render (hr : Header.render s ext = .ok h) :
    s.inspect ls ext filename =
      .ok ⟨h, Placement.offset s ls filename,
        s.windowKinds h 0 0 (ls.drop (Placement.offset s ls filename))⟩ := by
  simp [inspect, hr, bind, Except.bind, pure, Except.pure]

lemma inspect_of_error {err : TemplateError} (hr : Header.render s ext = .error err) :
    s.inspect ls ext filename = .error err := by
  simp [inspect, hr, bind, Except.bind]

/-- What a scan says: the header, where it goes, and the kinds of lines there. -/
lemma inspect_eq_ok_iff :
    s.inspect ls ext filename = .ok sc ↔
      Header.render s ext = .ok sc.header ∧ sc.offset = Placement.offset s ls filename ∧
        sc.kinds = s.windowKinds sc.header 0 0 (ls.drop sc.offset) := by
  cases hr : Header.render s ext with
  | error err => simp [s.inspect_of_error hr]
  | ok h =>
    rw [s.inspect_of_render hr]
    obtain ⟨h', o, ks⟩ := sc
    constructor
    · rintro ⟨⟩
      exact ⟨rfl, rfl, rfl⟩
    · rintro ⟨h1, rfl, h3⟩
      simp only [Except.ok.injEq] at h1
      subst h1
      rw [show ks = _ from h3]

lemma offset_le_of_inspect (hi : s.inspect ls ext filename = .ok sc) : sc.offset ≤ ls.length := by
  rw [((s.inspect_eq_ok_iff).mp hi).2.1]
  exact Placement.offset_le_length s ls filename

lemma limit_le_of_inspect (hi : s.inspect ls ext filename = .ok sc) : sc.limit ≤ ls.length := by
  have h1 := s.offset_le_of_inspect hi
  have h2 := s.length_windowKinds_le sc.header 0 0 (ls.drop sc.offset)
  rw [← ((s.inspect_eq_ok_iff).mp hi).2.2, List.length_drop] at h2
  unfold Scan.limit
  omega

lemma kinds_eq_map_window (hi : s.inspect ls ext filename = .ok sc) :
    sc.kinds = (sc.window ls).map (s.lineKind sc.header) := by
  have h := ((s.inspect_eq_ok_iff).mp hi).2.2
  have hm := s.windowKinds_eq_map sc.header 0 0 (ls.drop sc.offset)
  rw [← h] at hm
  exact hm

lemma length_window (hi : s.inspect ls ext filename = .ok sc) :
    (sc.window ls).length = sc.kinds.length := by
  rw [s.kinds_eq_map_window hi, List.length_map]

lemma zip_map_take {α β : Type} (f : α → β) (xs : List α) (n : Nat) :
    xs.zip ((xs.take n).map f) = (xs.take n).map fun x => (x, f x) := by
  induction xs generalizing n with
  | nil => simp
  | cons x xs ih =>
    cases n with
    | zero => simp
    | succ n => rw [List.take_succ_cons, List.map_cons, List.zip_cons_cons, ih, List.map_cons]

lemma zip_kinds (hi : s.inspect ls ext filename = .ok sc) :
    (ls.drop sc.offset).zip sc.kinds =
      (sc.window ls).map fun l => (l, s.lineKind sc.header l) := by
  rw [s.kinds_eq_map_window hi, Scan.window, zip_map_take]

lemma notices_eq_filter (hi : s.inspect ls ext filename = .ok sc) :
    sc.notices ls = (sc.window ls).filter fun l => s.lineKind sc.header l = .thirdParty := by
  rw [Scan.notices, s.zip_kinds hi]
  induction sc.window ls with
  | nil => rfl
  | cons l w ih =>
    rw [List.map_cons, List.filterMap_cons, List.filter_cons, ih]
    by_cases hl : s.lineKind sc.header l = .thirdParty
    · simp only [hl, if_true, decide_true]
    · simp only [hl, if_false, decide_false, Bool.false_eq_true]

lemma lineKind_of_mem_notices (hi : s.inspect ls ext filename = .ok sc) {l : Text}
    (hl : l ∈ sc.notices ls) : s.lineKind sc.header l = .thirdParty := by
  rw [s.notices_eq_filter hi] at hl
  simpa using (List.mem_filter.mp hl).2

end Settings

end Letterhead
