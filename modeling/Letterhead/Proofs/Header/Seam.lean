import Letterhead.Proofs.Header.Fit
import Letterhead.Proofs.Header.Placed

/-!
On which side of a comment a line starts before and after a file is rebuilt.

A rebuild takes lines out of the window, and moves notices of others to the header, one by one by
their kinds, while a comment may span several lines. So a line keeps its side just if, wherever
lines come to stand next to each other, the later one starts as the one above it ends. A rebuild
does not see to this: it may take the line that opens a comment and leave the others.
-/

namespace Letterhead.Settings

variable (s : Settings) {ls : List Text} {ext filename : String} {e : LineEnd} {sc : Scan}
variable {m : CommentMarks} {start : Nat}

lemma insideAt_rebuild_of_lt (hi : s.inspect ls ext filename = .ok sc) (e : LineEnd) {i : Nat}
    (hlt : i < sc.offset) : m.insideAt start (s.rebuild sc ls e) i = m.insideAt start ls i := by
  have ho := List.length_take_of_le (s.offset_le_of_inspect hi)
  obtain ⟨rest, hrest⟩ := s.rebuild_eq_take hi e
  unfold CommentMarks.insideAt
  rw [hrest, List.append_assoc, List.take_append_of_le_length (by omega), List.take_take,
    Nat.min_eq_left hlt.le]

lemma readLines_throughHeader (hi : s.inspect ls ext filename = .ok sc)
    (hm : (CommentStyle.ofExtension s ext).marks? = some m)
    (ht : ∀ t, s.IsHeaderText t → Text.hasPart m.closing t = false) (hs : start ≤ sc.offset)
    (e : LineEnd) : m.readLines false ((s.throughHeader sc ls e).drop start) = false := by
  have ho := List.length_take_of_le (s.offset_le_of_inspect hi)
  rw [throughHeader, List.drop_append_of_le_length (by rw [List.length_append]; omega),
    CommentMarks.readLines_append]
  exact readLines_header (s.inspect_eq_ok_iff.mp hi).1 hm ht _ e

lemma readLines_throughSeparator (hi : s.inspect ls ext filename = .ok sc)
    (hm : (CommentStyle.ofExtension s ext).marks? = some m)
    (ht : ∀ t, s.IsHeaderText t → Text.hasPart m.closing t = false) (hs : start ≤ sc.offset)
    (e : LineEnd) : m.readLines false ((s.throughSeparator sc ls e).drop start) =
      m.readLines false ((s.movedNotices .above sc).map (ls.getD · [])) := by
  have hlen := s.length_throughHeader hi e
  have hsep : ∀ inside, m.readLines inside (separator sc ls e) = inside := by
    intro inside
    unfold separator
    split
    · rfl
    · exact m.readLine_blank (by cases e <;> decide) (CommentStyle.next_not_blank hm inside)
  rw [throughSeparator, List.append_assoc, List.drop_append_of_le_length (by omega),
    CommentMarks.readLines_append, s.readLines_throughHeader hi hm ht hs,
    CommentMarks.readLines_append, hsep]

/-- Wherever lines come to stand next to each other in the rebuilt file, they fit: the notices of
others below what lies before the offset, and the other notices and the lines that are kept below
the header. -/
def Seamless (m : CommentMarks) (start : Nat) (sc : Scan) (ls : List Text) : Prop :=
  m.Fits start ls (m.insideAt start ls sc.offset) (s.movedNotices .below sc) ∧
    m.Fits start ls false (s.movedNotices .above sc ++ s.keptPlaces sc ls)

/-- **No seam shows where comments do not span lines**: where none is open at the offset and each
line of the window closes what it opens. -/
theorem seamless_of_closed (hi : s.inspect ls ext filename = .ok sc)
    (hm : (CommentStyle.ofExtension s ext).marks? = some m) (hs : start ≤ sc.offset)
    (ho : m.insideAt start ls sc.offset = false)
    (hw : ∀ l ∈ sc.window ls, m.readLine false l = false) : s.Seamless m start sc ls := by
  have hlim := s.limit_le_of_inspect hi
  unfold Scan.limit at hlim
  -- no comment is open anywhere in the window
  have hwindow : ∀ i ≤ sc.kinds.length, m.insideAt start ls (sc.offset + i) = false := by
    intro i hi'
    induction i with
    | zero => exact ho
    | succ i ih =>
      have hmem : ls.getD (sc.offset + i) [] ∈ sc.window ls := by
        refine List.mem_iff_getElem?.mpr ⟨i, ?_⟩
        have hlt : sc.offset + i < ls.length := by omega
        rw [Scan.window, List.getElem?_take_of_lt (by omega), List.getElem?_drop,
          List.getD_eq_getElem ls [] hlt, List.getElem?_eq_getElem hlt]
      rw [← Nat.add_assoc, m.insideAt_succ (by omega) (by omega), ih (by omega)]
      exact hw _ hmem
  have hclosed : ∀ {α : Type} {p : α → Bool} {xs : List α}, xs.length = sc.kinds.length →
      ∀ i ∈ places p sc.offset xs,
        m.insideAt start ls i = false ∧ m.insideAt start ls (i + 1) = false := by
    intro α p xs hxs i hip
    obtain ⟨h1, h2⟩ := bounds_of_mem_places hip
    obtain ⟨j, rfl⟩ : ∃ j, i = sc.offset + j := ⟨i - sc.offset, by omega⟩
    exact ⟨hwindow j (by omega), hwindow (j + 1) (by omega)⟩
  have hnotices : ∀ a, ∀ i ∈ s.movedNotices a sc,
      m.insideAt start ls i = false ∧ m.insideAt start ls (i + 1) = false := by
    intro a i hia
    unfold movedNotices at hia
    split at hia
    · exact hclosed rfl i hia
    · simp at hia
  have hrest : m.Fits start ls (m.insideAt start ls (sc.offset + sc.kinds.length))
      (List.range' sc.limit (ls.length - sc.limit)) :=
    CommentMarks.fits_range' (CommentStyle.next_not_blank hm) (by omega)
      (by unfold Scan.limit; omega)
  rw [hwindow _ (Nat.le_refl _)] at hrest
  refine ⟨?_, ?_⟩
  · rw [ho, ← List.append_nil (s.movedNotices .below sc)]
    exact CommentMarks.fits_append_of_closed (hnotices _) trivial
  · exact CommentMarks.fits_append_of_closed (hnotices _)
      (CommentMarks.fits_append_of_closed (hclosed (s.length_windowFates hi)) hrest)

example : sample.Seamless CommentStyle.htmlMarks 0 sampleScan sampleLines :=
  sample.seamless_of_closed inspect_sample (by cbv) (Nat.zero_le _) rfl (by decide)

/-- **Lines keep their sides just if the seams fit.** When a file is rebuilt whose comments may
span lines, each line that is still there starts on the side of a comment on which it started, if
and only if the lines that come to stand next to each other fit. -/
theorem normalize_keeps_sides_iff (hg : s.isGenerated ls = false)
    (hi : s.inspect ls ext filename = .ok sc) (hc : sc.isCorrect = false)
    (hm : (CommentStyle.ofExtension s ext).marks? = some m)
    (ht : ∀ t, s.IsHeaderText t → Text.hasPart m.closing t = false) (hs : start ≤ sc.offset)
    (e : LineEnd) :
    ∃ n, s.normalize ls ext filename e = .ok n ∧
      (∀ x ∈ s.placed sc ls e, n.lines[x.2]? = ls[x.1]?) ∧
      (∀ q l, n.lines[q]? = some l →
        (∃ p, (p, q) ∈ s.placed sc ls e) ∨ l ∈ headerLines sc e ∨ l = e.tail) ∧
      ((∀ x ∈ s.placed sc ls e, (ls.getD x.1 []).isBlank = false →
        m.insideAt start n.lines x.2 = m.insideAt start ls x.1) ↔
        s.Seamless m start sc ls) := by
  refine ⟨_, s.normalize_of_incorrect hg hi hc, s.getElem?_of_mem_placed hi e,
    fun q l hl => s.exists_mem_placed hi hl, ?_⟩
  have ho := List.length_take_of_le (s.offset_le_of_inspect hi)
  have hblank := CommentStyle.next_not_blank hm
  have hmoved : ∀ a, ∀ p ∈ s.movedNotices a sc, start ≤ p ∧ p < ls.length := fun a p hp =>
    (s.bounds_of_mem_movedNotices hi a p hp).imp_left hs.trans
  have hkept : ∀ p ∈ s.keptPlaces sc ls, start ≤ p ∧ p < ls.length := fun p hp =>
    (s.bounds_of_mem_keptPlaces hi p hp).imp_left hs.trans
  have hbefore : ∀ x ∈ (List.range sc.offset).zipIdx, (ls.getD x.1 []).isBlank = false →
      m.insideAt start (s.rebuild sc ls e) x.2 = m.insideAt start ls x.1 := by
    rintro ⟨i, j⟩ hx -
    obtain ⟨-, hlt, hj⟩ := List.mem_zipIdx hx
    obtain rfl : i = j := by simpa using hj
    exact s.insideAt_rebuild_of_lt hi e (by simpa using hlt)
  have habove : (∀ x ∈ (s.movedNotices .below sc).zipIdx sc.offset,
      (ls.getD x.1 []).isBlank = false →
        m.insideAt start (s.rebuild sc ls e) x.2 = m.insideAt start ls x.1) ↔
      m.Fits start ls (m.insideAt start ls sc.offset) (s.movedNotices .below sc) := by
    obtain ⟨rest, hrest⟩ := s.rebuild_eq_take hi e
    rw [hrest]
    exact CommentMarks.forall_insideAt_append_iff hblank ho.symm hs (hmoved _) rest
  have hbelow := CommentMarks.forall_insideAt_append_iff hblank (s.length_throughHeader hi e).symm
    (by omega) (hmoved .above) (separator sc ls e ++ (s.keptPlaces sc ls).map (ls.getD · []))
  have hbody := CommentMarks.forall_insideAt_append_iff hblank
    (s.length_throughSeparator hi e).symm (by omega) hkept []
  rw [← s.rebuild_eq_throughHeader hi, s.readLines_throughHeader hi hm ht hs] at hbelow
  rw [← s.rebuild_eq_throughSeparator hi, s.readLines_throughSeparator hi hm ht hs] at hbody
  simp only [placed, List.forall_mem_append]
  rw [habove, hbelow, hbody, Seamless, CommentMarks.fits_append hblank (hmoved .above), and_assoc,
    and_assoc, and_iff_right hbefore]

/-! ### A comment that loses the line that opens it -/

def ours : Settings :=
  { Settings.default 2025 with copyright := { Copyright.default 2025 with holder := "ACME" } }

/-- A file that starts with a comment of three lines, the first of them an old notice. -/
def openerLines : List Text := ["<!-- Copyright ACME 2019", "terms of use", "-->", "text"]

def openerScan : Scan :=
  ⟨⟨.html, "<!-- Copyright ACME 2025 -->", none⟩, 0, [.ownStale, .content, .content, .content]⟩

lemma inspect_opener : ours.inspect openerLines ".md" "a.md" = .ok openerScan := by
  have hown : ours.lineKind openerScan.header "<!-- Copyright ACME 2019" = .ownStale := by cbv
  refine (ours.inspect_eq_ok_iff).mpr ⟨by cbv, by decide, ?_⟩
  rw [show openerLines.drop openerScan.offset = openerLines from rfl, openerLines,
    windowKinds_cons, hown]
  decide

lemma marks_ours : (CommentStyle.ofExtension ours ".md").marks? = some CommentStyle.htmlMarks := by
  cbv

lemma eq_of_isHeaderText_ours {t : Text} (ht : ours.IsHeaderText t) :
    t = "Copyright ACME 2025" :=
  eq_of_isHeaderText (by cbv) rfl ht

theorem ours_keeps_sides_iff : ∃ n, ours.normalize openerLines ".md" "a.md" .lf = .ok n ∧
    (∀ x ∈ ours.placed openerScan openerLines .lf, n.lines[x.2]? = openerLines[x.1]?) ∧
    (∀ q l, n.lines[q]? = some l → (∃ p, (p, q) ∈ ours.placed openerScan openerLines .lf) ∨
      l ∈ headerLines openerScan .lf ∨ l = LineEnd.lf.tail) ∧
    ((∀ x ∈ ours.placed openerScan openerLines .lf, (openerLines.getD x.1 []).isBlank = false →
      CommentStyle.htmlMarks.insideAt 0 n.lines x.2 =
        CommentStyle.htmlMarks.insideAt 0 openerLines x.1) ↔
      ours.Seamless CommentStyle.htmlMarks 0 openerScan openerLines) :=
  normalize_keeps_sides_iff ours (by decide) inspect_opener (by decide) marks_ours
    (fun t ht => by rw [eq_of_isHeaderText_ours ht]; decide) (Nat.zero_le _) .lf

lemma rebuild_opener : ours.rebuild openerScan openerLines .lf =
    (["<!-- Copyright ACME 2025 -->", "", "terms of use", "-->", "text"] : List Text) := by
  decide

lemma windowFates_opener :
    ours.windowFates openerScan openerLines = [.line, .kept, .kept, .kept] := by
  rw [windowFates, windowEntries, ← ours.zip_kinds inspect_opener]
  decide

/-- **Not every seam fits.** A rebuild takes the line that opens a comment and leaves its other
lines, and what was a comment is text. -/
theorem opener_goes_alone :
    ours.inspect openerLines ".md" "a.md" = .ok openerScan ∧
    (∀ t, ours.IsHeaderText t → Text.hasPart CommentStyle.htmlOpen t = false ∧
      Text.hasPart CommentStyle.htmlClose t = false) ∧
    CommentStyle.htmlMarks.insideAt 0 openerLines openerLines.length = false ∧
    ∃ n, ours.normalize openerLines ".md" "a.md" .lf = .ok n ∧
      (1, 2) ∈ ours.placed openerScan openerLines .lf ∧ n.lines[2]? = openerLines[1]? ∧
      (openerLines.getD 1 []).isBlank = false ∧
      CommentStyle.htmlMarks.insideAt 0 openerLines 1 = true ∧
      CommentStyle.htmlMarks.insideAt 0 n.lines 2 = false := by
  have hn := ours.normalize_of_incorrect (e := .lf) (by decide) inspect_opener (by decide)
  have hplaced : (1, 2) ∈ ours.placed openerScan openerLines .lf := by
    rw [placed, keptPlaces, windowFates_opener]
    decide
  rw [rebuild_opener] at hn
  refine ⟨inspect_opener, ?_, by decide, _, hn, hplaced, by decide, by decide, by decide,
    by decide⟩
  intro t ht
  rw [eq_of_isHeaderText_ours ht]
  decide

end Letterhead.Settings
