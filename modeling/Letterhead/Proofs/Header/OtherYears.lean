import Mathlib
import Letterhead.Header.LineKind
import Letterhead.Proofs.Header.Render
import Letterhead.Proofs.Header.Shape
import Letterhead.Proofs.Template.Edge

/-!
A notice of our own is recognized whatever its years are, in every comment style: what is read in
a comment line is what was written into it. There is one exception. In YAML a text with a colon is
written in quotes, and these are not taken off when it is read.
-/

namespace Letterhead

namespace CommentStyle

variable {style : CommentStyle} {ext : String} {t : Text}

/-- The text is put in quotes when it is wrapped. -/
def quotes (style : CommentStyle) (ext : String) (t : Text) : Bool :=
  match style with
  | line _ => isYaml ext && t.any (·.is ':')
  | _ => false

/-- What is written into a comment line for a text. -/
def inside (style : CommentStyle) (ext : String) (t : Text) : Text :=
  if style.quotes ext t then CodePoint.ofChar '"' :: (t ++ [CodePoint.ofChar '"']) else t

/-- The marker of a comment line has no blanks around it. -/
def HasTrimmedMarker (style : CommentStyle) : Prop :=
  ∀ m, style = line m → (Text.ofString m).IsTrimmed

lemma isTrimmed_inside (ht : t.IsTrimmed) : (style.inside ext t).IsTrimmed := by
  unfold inside
  split
  · refine ⟨?_, ?_⟩
    · rintro c ⟨⟩
      decide
    · rw [← List.cons_append, List.getLast?_concat]
      rintro c ⟨⟩
      decide
  · exact ht

lemma wrap_line (m : String) :
    (line m).wrap ext t = Text.ofString m ++ ([CodePoint.ofChar ' '] ++ (line m).inside ext t) := by
  simp [wrap, inside, quotes]

lemma mem_wrap {x : CodePoint} (hx : x ∈ t) : x ∈ style.wrap ext t := by
  cases style with
  | line m =>
    rw [wrap]
    split <;> simp [hx]
  | html => simp [wrap, hx]
  | block => simp [wrap, hx]

lemma map_trim_dropHead? {m q : Text} (hm : m.IsTrimmed) (hq : q.IsTrimmed) :
    (Text.dropHead? m (Text.trim (m ++ ([CodePoint.ofChar ' '] ++ q)))).map Text.trim = some q := by
  have hblank : Text.trim ([CodePoint.ofChar ' '] ++ q) = q := by
    rw [Text.trim_blank_append (by decide), hq.trim_eq]
  by_cases hm0 : m = []
  · rw [hm0, List.nil_append, hblank]
    exact congrArg some hq.trim_eq
  by_cases hq0 : q = []
  · rw [hq0, List.append_nil, Text.trim_append_blank _ (by decide), hm.trim_eq]
    have := Text.dropHead?_append m []
    rw [List.append_nil] at this
    rw [this]
    rfl
  · rw [(hm.append hq hm0 hq0 _).trim_eq, Text.dropHead?_append]
    exact congrArg some hblank

/-- **What is written into a comment line is read in it.** -/
theorem textOf?_wrap (hm : style.HasTrimmedMarker) (ht : t.IsTrimmed) :
    style.textOf? (style.wrap ext t) = some (style.inside ext t) := by
  cases style with
  | line m => rw [wrap_line, textOf?, map_trim_dropHead? (hm m rfl) (isTrimmed_inside ht)]
  | html =>
    have hw : wrap html ext t = Text.ofString htmlOpen ++
        (([CodePoint.ofChar ' '] ++ t ++ [CodePoint.ofChar ' ']) ++ Text.ofString htmlClose) := by
      simp [wrap]
    have htrim : Text.trim (wrap html ext t) = wrap html ext t := by
      rw [hw]
      exact (Text.IsTrimmed.append ⟨by decide, by decide⟩ ⟨by decide, by decide⟩ (by decide)
        (by decide) _).trim_eq
    rw [textOf?, htrim, hw, Text.dropHead?_append, Option.map_some, Text.dropTail?_append,
      Option.getD_some, Text.trim_append_blank _ (by decide), Text.trim_blank_append (by decide),
      ht.trim_eq]
    rfl
  | block =>
    rw [textOf?, wrap, Text.dropHead?_append, Option.map_some, ht.trim_eq]
    rfl

end CommentStyle

namespace LineKind

/-- The line is taken for one of our own header, of this year or another. -/
def isOurs : LineKind → Bool
  | copyright => true
  | license => true
  | replace => true
  | ownStale => true
  | _ => false

end LineKind

open Template (Field Segment)

namespace Settings

variable (s : Settings) {ext : String} {h : Header}

lemma isOurs_lineKind_iff {l : Text} (hl : l.isBlank = false) :
    (s.lineKind h l).isOurs = true ↔ l.trim = h.copyright.trim ∨
      (∃ c ∈ h.license, l.trim = Text.trim c) ∨ s.isReplaced l = true ∨
      s.isOwnLine h.style l = true := by
  have hlicense : h.license.any (fun license => l.trim == Text.trim license) = true ↔
      ∃ c ∈ h.license, l.trim = Text.trim c := by
    rw [Option.any_eq_true]
    simp
  rw [← hlicense]
  simp only [lineKind, Text.isEmpty_trim, hl, Bool.not_false, Bool.true_and, beq_iff_eq]
  split_ifs <;> simp_all [LineKind.isOurs]

namespace Copyright

/-! ### The ends of a notice -/

lemma isTrimmed_yearText {i : Int} (hi : IsFourDigit i) :
    yearText i ≠ [] ∧ (yearText i).IsTrimmed := by
  obtain ⟨a, b, c, d, h, hd⟩ := yearText_eq hi
  refine ⟨by simp [h], ⟨?_, ?_⟩⟩
  · simpa [h] using CodePoint.not_isBlank_of_isDigit (hd a (by simp))
  · simpa [h] using CodePoint.not_isBlank_of_isDigit (hd d (by simp))

lemma isTrimmed_yearsText {c : Copyright} (hy : c.HasFourDigits) :
    c.yearsText ≠ [] ∧ c.yearsText.IsTrimmed := by
  obtain ⟨hne, hcurrent⟩ := isTrimmed_yearText hy.current
  obtain ⟨hne', hstart⟩ := isTrimmed_yearText hy.start
  rw [yearsText]
  split
  · exact ⟨hne, hcurrent⟩
  · exact ⟨by simp [hne], hstart.append hcurrent hne' hne _⟩

lemma isTrimmed_of_isYearField {c : Copyright} (hy : c.HasFourDigits) {f : Field}
    (hf : isYearField f) : c.fieldText f ≠ [] ∧ (c.fieldText f).IsTrimmed := by
  simp only [isYearField, yearFields, List.mem_cons, List.not_mem_nil, or_false] at hf
  rcases hf with h | h | h <;> simp only [fieldText, h, if_true]
  · exact isTrimmed_yearText hy.start
  · exact isTrimmed_yearText hy.current
  · exact isTrimmed_yearsText hy

/-- A notice is not blank, since it has a year. -/
lemma exists_not_isBlank {c : Copyright} (hb : c.IsBare) (hy : c.HasFourDigits) :
    ∃ x ∈ c.noticeText (Template.segments c.format.toList), x.isBlank = false := by
  obtain ⟨f, hf, hyear⟩ := hb.year
  obtain ⟨hne, ht⟩ := isTrimmed_of_isYearField hy hyear
  exact ⟨_, List.mem_flatMap.mpr ⟨_, hf, List.head_mem hne⟩,
    ht.head _ (List.head?_eq_some_head hne)⟩

lemma isTrimmed_noticeText {c : Copyright} (hb : c.IsBare) (hy : c.HasFourDigits)
    (hformat : (Text.ofString c.format).IsTrimmed) (hholder : (Text.ofString c.holder).IsTrimmed)
    (hne : c.holder ≠ "") :
    (c.noticeText (Template.segments c.format.toList)).IsTrimmed := by
  refine Template.isTrimmed_flatMap_segments (fun _ => rfl) (fun seg hseg => ?_) hformat
  cases seg with
  | literal t => exact .inl ⟨t, rfl⟩
  | field f =>
    right
    rcases List.mem_cons.mp (hb.segments _ hseg).2 with hname | hname
    · have htext : c.segmentText (.field f) = Text.ofString c.holder := by
        simp [segmentText, fieldText, hname]
      rw [htext]
      exact ⟨by simpa [Text.ofString, Text.ofChars] using hne, hholder⟩
    · exact isTrimmed_of_isYearField hy hname
  | broken m => exact (hb.segments _ hseg).elim

end Copyright

lemma copyrightText_of_isBare (hb : s.copyright.IsBare) (hy : s.copyright.HasFourDigits) :
    s.copyrightText =
      .ok (s.copyright.noticeText (Template.segments s.copyright.format.toList)) := by
  obtain ⟨years, hyears, htext⟩ := Copyright.exists_years hy
  rw [copyrightText, hyears]
  dsimp only
  rw [expandTemplate, Template.expand,
    s.copyright.expandSegments_noticeText s.host htext hb.segments]
  rfl

lemma isOwnText_noticeText (hb : s.copyright.IsBare) {c : Copyright}
    (hc : c.holder = s.copyright.holder) (hy : c.HasFourDigits) :
    s.isOwnText (c.noticeText (Template.segments s.copyright.format.toList)) = true := by
  rw [isOwnText, Copyright.noticeShape?_of_isBare hb, ← hc, Option.any_some,
    Copyright.open?_noticeText hy hb.segments, Bool.true_or]

lemma isOwnText_quoted (hb : s.copyright.IsBare) {c : Copyright}
    (hc : c.holder = s.copyright.holder) (z : Text) :
    s.isOwnText (CodePoint.ofChar '"' ::
      (c.noticeText (Template.segments s.copyright.format.toList) ++ z)) = false := by
  rw [isOwnText, Copyright.noticeShape?_of_isBare hb, ← hc, Option.any_some,
    Copyright.open?_quote_noticeText hb.segments hb.year, Bool.false_or, namesHolder]
  have hq : Text.startsWith (CodePoint.ofChar '"' ::
      (c.noticeText (Template.segments s.copyright.format.toList) ++ z)) "Copyright" = false := rfl
  rw [hq, Bool.and_false, Bool.false_and, Bool.false_and]

/-- **A notice of our own is recognized whatever its years are**, if it is not written in quotes
and has no blanks around it, as one with a holder has not. One that is written in quotes is
recognized just if it is a line of the header or configured to be replaced. -/
theorem isOurs_of_other_years_iff (hb : s.copyright.IsBare)
    (hformat : (Text.ofString s.copyright.format).IsTrimmed)
    (hholder : (Text.ofString s.copyright.holder).IsTrimmed) (hr : Header.render s ext = .ok h)
    (hm : h.style.HasTrimmedMarker) {first current : Int} (hf : Copyright.IsFourDigit first)
    (hc : Copyright.IsFourDigit current) :
    ∃ t l, (s.withYears first current).copyrightText = .ok t ∧
      (s.withYears first current).copyrightLine ext = .ok l ∧
      (s.copyright.holder ≠ "" → t.IsTrimmed) ∧
      (t.IsTrimmed → ((s.lineKind h l).isOurs = true ↔
        l.trim = h.copyright.trim ∨ (∃ c ∈ h.license, l.trim = Text.trim c) ∨
          s.isReplaced l = true ∨ h.style.quotes ext t = false)) := by
  obtain ⟨hstyle, -, -⟩ := Header.render_eq_ok_iff.mp hr
  have hb' : (s.withYears first current).copyright.IsBare := ⟨hb.segments, hb.year⟩
  have hy : (s.withYears first current).copyright.HasFourDigits := ⟨hf, hc⟩
  have hsame : (s.withYears first current).copyright.holder = s.copyright.holder := rfl
  set c := (s.withYears first current).copyright
  set t := c.noticeText (Template.segments s.copyright.format.toList)
  have htext : (s.withYears first current).copyrightText = .ok t :=
    copyrightText_of_isBare _ hb' hy
  have hwrap : (s.withYears first current).wrap ext t = h.style.wrap ext t := by
    rw [wrap, hstyle]
    rfl
  refine ⟨t, h.style.wrap ext t, htext, ?_, c.isTrimmed_noticeText hb' hy hformat hholder,
    fun htrim => ?_⟩
  · exact (copyrightLine_eq_ok_iff _).mpr ⟨t, htext, hwrap.symm⟩
  · have hblank : Text.isBlank (h.style.wrap ext t) = false := by
      obtain ⟨x, hx, hd⟩ := Copyright.exists_not_isBlank hb' hy
      rw [Text.isBlank, List.all_eq_false]
      exact ⟨x, CommentStyle.mem_wrap hx, by simp [hd]⟩
    have hplain : s.isOwnText t = true := isOwnText_noticeText s hb hsame hy
    have hquoted : s.isOwnText (CodePoint.ofChar '"' :: (t ++ [CodePoint.ofChar '"'])) = false :=
      isOwnText_quoted s hb hsame _
    -- what is read in the line decides: the text itself, or the text in quotes
    have hown : s.isOwnLine h.style (h.style.wrap ext t) = true ↔ h.style.quotes ext t = false := by
      rw [isOwnLine, CommentStyle.textOf?_wrap hm htrim, Option.any_some, CommentStyle.inside]
      cases h.style.quotes ext t <;> simp [hplain, hquoted]
    rw [s.isOurs_lineKind_iff hblank, hown]

/-- A template with a colon in its text. -/
def colon : Settings :=
  { Settings.default 2025 with
    copyright := ⟨"ACME", 2025, 2025, "Copyright: \x7bholder\x7d \x7byears\x7d"⟩ }

lemma segments_colon : Template.segments colon.copyright.format.toList =
    [.literal "Copyright: ".toList, .field ⟨"holder".toList, none, []⟩, .literal [' '],
      .field ⟨"years".toList, none, []⟩] := by
  cbv

lemma isBare_colon : colon.copyright.IsBare where
  segments := by
    rw [segments_colon]
    simp only [List.forall_mem_cons]
    refine ⟨trivial, ⟨⟨rfl, rfl⟩, by decide⟩, trivial, ⟨⟨rfl, rfl⟩, by decide⟩, by simp⟩
  year := ⟨⟨"years".toList, none, []⟩, by rw [segments_colon]; simp,
    by show String.ofList _ ∈ Copyright.yearFields; decide⟩

lemma hasTrimmedMarker_hash : (CommentStyle.line "#").HasTrimmedMarker := by
  rintro m ⟨⟩
  exact ⟨by decide, by decide⟩

theorem colon_recognizes_2019 :
    ∃ l, (colon.withYears 2019 2019).copyrightLine ".py" = .ok l ∧
      (colon.lineKind ⟨.line "#", "# Copyright: ACME 2025", none⟩ l).isOurs = true := by
  have hr : Header.render colon ".py" = .ok ⟨.line "#", "# Copyright: ACME 2025", none⟩ := by cbv
  have hy : Copyright.IsFourDigit 2019 := ⟨by decide, by decide⟩
  obtain ⟨t, l, -, hl, htrim, h⟩ := isOurs_of_other_years_iff colon isBare_colon
    ⟨by decide, by decide⟩ ⟨by decide, by decide⟩ hr hasTrimmedMarker_hash hy hy
  have hplain : (CommentStyle.line "#").quotes ".py" t = false := rfl
  exact ⟨l, hl, (h (htrim (by decide))).mpr (.inr (.inr (.inr hplain)))⟩

/-- **Not every notice of our own is recognized**: in YAML a text with a colon is written in
quotes, which are not taken off. -/
theorem quoted_is_content :
    colon.copyright.IsBare ∧ (Text.ofString colon.copyright.format).IsTrimmed ∧
      (Text.ofString colon.copyright.holder).IsTrimmed ∧
      ∃ h l, Header.render colon ".yaml" = .ok h ∧ h.style.HasTrimmedMarker ∧
        (colon.withYears 2019 2019).copyrightLine ".yaml" = .ok l ∧
        l = "# \"Copyright: ACME 2019\"" ∧ colon.lineKind h l = .content := by
  refine ⟨isBare_colon, ⟨by decide, by decide⟩, ⟨by decide, by decide⟩,
    ⟨.line "#", "# \"Copyright: ACME 2025\"", none⟩, _, by cbv, hasTrimmedMarker_hash, by cbv, rfl,
    ?_⟩
  have hours : colon.isOwnLine (.line "#") "# \"Copyright: ACME 2019\"" = false := by cbv
  rw [lineKind, hours]
  decide

end Settings

end Letterhead
