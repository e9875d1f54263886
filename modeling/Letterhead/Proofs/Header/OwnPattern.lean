import Mathlib
import Letterhead.Proofs.Header.OtherYears
import Letterhead.Proofs.Pattern.Denote

/-!
The shape of a notice and the pattern for it. A copyright template can be turned into a regular
expression: its literal text and the holder are escaped, and digits are asked for in the place of
years. It matches at the start of a text just if the shape fits, so a notice of our own is matched
by the pattern of its template whatever its years are.
-/

namespace Letterhead

open Pattern (Denotes fourDigits blanks denotes_nil denotes_escapeText denotes_fourDigits
  denotes_blanks escapeText begins begins_iff)

namespace NoticePart

/-- The texts that a part of a notice may be. -/
def texts : NoticePart → Language CodePoint
  | exactly t => {t}
  | year => fourDigits
  | years => fourDigits * (1 + {Text.ofChars [',']} * blanks * fourDigits)

/-! ### The shape as a language -/

lemma afterYear?_eq_some_iff {t r : Text} :
    afterYear? t = some r ↔ ∃ u ∈ fourDigits, u ++ r = t := by
  constructor
  · intro h
    unfold afterYear? at h
    split at h
    · next a b c d rest =>
      split at h
      · next hd =>
        obtain rfl := Option.some.inj h
        simp only [Bool.and_eq_true] at hd
        exact ⟨[a, b, c, d], ⟨rfl, by simp [hd]⟩, rfl⟩
      · cases h
    · cases h
  · rintro ⟨u, ⟨hlen, hall⟩, rfl⟩
    obtain ⟨a, b, c, d, rfl⟩ := List.length_eq_four.mp hlen
    simp only [List.mem_cons, List.not_mem_nil, or_false, forall_eq_or_imp, forall_eq] at hall
    simp [afterYear?, hall]

/-- A year has no blank in front, so the blanks before it are those that are taken off. -/
lemma trimLeft_blanks_year {b u : Text} (hb : b ∈ blanks) (hu : u ∈ fourDigits) (r : Text) :
    Text.trimLeft (b ++ (u ++ r)) = u ++ r := by
  obtain ⟨hlen, hall⟩ := hu
  obtain ⟨d, u, rfl⟩ := List.exists_cons_of_length_eq_add_one hlen
  have hd : d.isBlank = false := CodePoint.not_isBlank_of_isDigit (hall d List.mem_cons_self)
  rw [Text.trimLeft, List.dropWhile_append_of_pos hb, List.cons_append]
  exact List.dropWhile_cons_of_neg (by simp [hd])

lemma afterSecondYear?_eq_some_iff {t r : Text} : afterSecondYear? t = some r ↔
    ∃ u ∈ ({Text.ofChars [',']} * blanks * fourDigits : Language CodePoint), u ++ r = t := by
  constructor
  · intro h
    rcases t with _ | ⟨c, t⟩
    · cases h
    · rw [afterSecondYear?] at h
      split at h
      · next hc =>
        obtain ⟨u, hu, hr⟩ := afterYear?_eq_some_iff.mp h
        have hcomma : c = CodePoint.ofChar ',' := by
          cases c
          simpa [CodePoint.is, CodePoint.ofChar] using hc
        refine ⟨[c] ++ t.takeWhile CodePoint.isBlank ++ u, ?_, ?_⟩
        · refine Language.append_mem_mul (Language.append_mem_mul ?_ ?_) hu
          · rw [hcomma]
            rfl
          · exact fun x hx => List.mem_takeWhile_imp hx
        · rw [List.append_assoc, hr, Text.trimLeft, List.append_assoc,
            List.takeWhile_append_dropWhile]
          rfl
      · cases h
  · rintro ⟨_, ⟨_, ⟨_, rfl, b, hb, rfl⟩, u, hu, rfl⟩, rfl⟩
    show afterYear? (Text.trimLeft (b ++ u ++ r)) = some r
    rw [List.append_assoc, trimLeft_blanks_year hb hu, afterYear?_eq_some_iff]
    exact ⟨u, hu, rfl⟩

lemma open?_cons {p : NoticePart} {ps : List NoticePart} {t : Text} :
    open? (p :: ps) t = true ↔ ∃ u ∈ p.texts, ∃ r, u ++ r = t ∧ open? ps r = true := by
  cases p with
  | exactly s =>
    rw [open?]
    constructor
    · intro h
      split at h
      · next r hr => exact ⟨s, rfl, r, (Text.dropHead?_eq_some_iff.mp hr).symm, h⟩
      · cases h
    · rintro ⟨_, rfl, r, rfl, h⟩
      rwa [Text.dropHead?_append]
  | year =>
    rw [open?]
    constructor
    · intro h
      split at h
      · next r hr =>
        obtain ⟨u, hu, rfl⟩ := afterYear?_eq_some_iff.mp hr
        exact ⟨u, hu, r, rfl, h⟩
      · cases h
    · rintro ⟨u, hu, r, rfl, h⟩
      rwa [afterYear?_eq_some_iff.mpr ⟨u, hu, rfl⟩]
  | years =>
    rw [open?]
    constructor
    · intro h
      split at h
      · next r hr =>
        obtain ⟨u, hu, rfl⟩ := afterYear?_eq_some_iff.mp hr
        rcases Bool.or_eq_true_iff.mp h with hone | htwo
        · refine ⟨u ++ [], Language.append_mem_mul hu (.inl rfl), r, ?_, hone⟩
          rw [List.append_nil]
        · split at htwo
          · next r' hr' =>
            obtain ⟨v, hv, rfl⟩ := afterSecondYear?_eq_some_iff.mp hr'
            exact ⟨u ++ v, Language.append_mem_mul hu (.inr hv), r', List.append_assoc .., htwo⟩
          · cases htwo
      · cases h
    · rintro ⟨_, ⟨u, hu, v, hv, rfl⟩, r, rfl, h⟩
      rw [List.append_assoc, afterYear?_eq_some_iff.mpr ⟨u, hu, rfl⟩]
      rcases hv with rfl | hv
      · simp only [List.nil_append, h, Bool.true_or]
      · simp only [afterSecondYear?_eq_some_iff.mpr ⟨v, hv, rfl⟩, h, Bool.or_true]

lemma open?_iff {ps : List NoticePart} {t : Text} :
    open? ps t = true ↔ ∃ u ∈ (ps.map texts).prod, u <+: t := by
  induction ps generalizing t with
  | nil => exact iff_of_true rfl ⟨[], Language.nil_mem_one, List.nil_prefix⟩
  | cons p ps ih =>
    rw [open?_cons, List.map_cons, List.prod_cons]
    constructor
    · rintro ⟨u, hu, r, rfl, h⟩
      obtain ⟨v, hv, hpre⟩ := ih.mp h
      exact ⟨u ++ v, Language.append_mem_mul hu hv, (List.prefix_append_right_inj u).mpr hpre⟩
    · rintro ⟨_, ⟨u, hu, v, hv, rfl⟩, r, rfl⟩
      exact ⟨u, hu, v ++ r, (List.append_assoc ..).symm, ih.mpr ⟨v, hv, r, rfl⟩⟩

end NoticePart

namespace Settings

open Template (Field Segment)

/-! ### The pattern of a template -/

/-- A pattern for a year. -/
def yearPattern : List Char := ['\\', 'd', '\x7b', '4', '\x7d']

/-- A pattern for a year, or for two with a comma between them. -/
def yearsPattern : List Char :=
  yearPattern ++
    (['(', '?', ':'] ++ (escapeText [','] ++ ['\\', 's', '*'] ++ yearPattern) ++ [')', '?'])

def fieldPattern? (holder : String) (f : Field) : Option (List Char) :=
  let name := String.ofList f.name
  if name = "start_year" ∨ name = "current_year" then some yearPattern
  else if name = "years" then some yearsPattern
  else if name = "holder" then some (escapeText holder.toList)
  else none

def segmentPattern? (holder : String) : Segment → Option (List Char)
  | .literal t => some (escapeText t)
  | .field f => fieldPattern? holder f
  | .broken _ => none

def hasYearField : Segment → Bool
  | .field f => decide (String.ofList f.name ∈ Copyright.yearFields)
  | _ => false

/-- The copyright template as a pattern, if it has a year and no field that is not known. -/
def noticePattern? (c : Copyright) : Option (List Char) := do
  let segs := Template.segments c.format.toList
  let patterns ← segs.mapM (segmentPattern? c.holder)
  if segs.any hasYearField then some patterns.flatten else none

example : yearsPattern = "\\d\x7b4\x7d(?:,\\s*\\d\x7b4\x7d)?".toList := by decide

lemma denotes_yearsPattern : Denotes yearsPattern NoticePart.years.texts :=
  denotes_fourDigits.append
    (((denotes_escapeText [',']).append denotes_blanks).append denotes_fourDigits).optional

lemma segment_alike (holder : String) (seg : Segment) :
    NoticePart.ofSegment? holder seg = none ∧ segmentPattern? holder seg = none ∨
    ∃ p cs, NoticePart.ofSegment? holder seg = some p ∧ segmentPattern? holder seg = some cs ∧
      Denotes cs p.texts ∧ decide (p = .year ∨ p = .years) = hasYearField seg := by
  cases seg with
  | literal t => exact .inr ⟨_, _, rfl, rfl, denotes_escapeText t, rfl⟩
  | broken m => exact .inl ⟨rfl, rfl⟩
  | field f =>
    simp only [NoticePart.ofSegment?, NoticePart.ofField?, segmentPattern?, fieldPattern?,
      hasYearField, Copyright.yearFields]
    by_cases hyear : String.ofList f.name = "start_year" ∨ String.ofList f.name = "current_year"
    · refine .inr ⟨.year, _, if_pos hyear, if_pos hyear, denotes_fourDigits, ?_⟩
      rcases hyear with h | h <;> simp [h]
    rw [if_neg hyear, if_neg hyear]
    by_cases hyears : String.ofList f.name = "years"
    · exact .inr ⟨.years, _, if_pos hyears, if_pos hyears, denotes_yearsPattern, by simp [hyears]⟩
    rw [if_neg hyears, if_neg hyears]
    by_cases hholder : String.ofList f.name = "holder"
    · refine .inr ⟨.exactly holder, _, if_pos hholder, if_pos hholder, denotes_escapeText _, ?_⟩
      simp [hholder]
    · exact .inl ⟨if_neg hholder, if_neg hholder⟩

lemma segments_alike (holder : String) (segs : List Segment) :
    segs.mapM (NoticePart.ofSegment? holder) = none ∧ segs.mapM (segmentPattern? holder) = none ∨
    ∃ ps css, segs.mapM (NoticePart.ofSegment? holder) = some ps ∧
      segs.mapM (segmentPattern? holder) = some css ∧
      Denotes css.flatten (ps.map NoticePart.texts).prod ∧
      (ps.any fun p => p = .year ∨ p = .years) = segs.any hasYearField := by
  induction segs with
  | nil => exact .inr ⟨[], [], rfl, rfl, denotes_nil, rfl⟩
  | cons seg segs ih =>
    simp only [List.mapM_cons]
    rcases segment_alike holder seg with ⟨hp, hcs⟩ | ⟨p, cs, hp, hcs, hd, hy⟩
    · exact .inl ⟨by rw [hp]; rfl, by rw [hcs]; rfl⟩
    rcases ih with ⟨hps, hcss⟩ | ⟨ps, css, hps, hcss, hds, hys⟩
    · exact .inl ⟨by rw [hp, hps]; rfl, by rw [hcs, hcss]; rfl⟩
    · refine .inr ⟨p :: ps, cs :: css, by rw [hp, hps]; rfl, by rw [hcs, hcss]; rfl, ?_, ?_⟩
      · rw [List.flatten_cons, List.map_cons, List.prod_cons]
        exact hd.append hds
      · rw [List.any_cons, List.any_cons, hys, hy]

/-- **The pattern of a template matches where its shape fits**, and there is a pattern just if
there is a shape. -/
theorem begins_noticePattern (c : Copyright) (host : Host) (t : Text) :
    (noticePattern? c).map (begins host · t) =
      (noticeShape? c).map fun ps => .ok (NoticePart.open? ps t) := by
  rw [noticePattern?, noticeShape?]
  rcases segments_alike c.holder (Template.segments c.format.toList) with
    ⟨hps, hcss⟩ | ⟨ps, css, hps, hcss, hd, hy⟩
  · rw [hps, hcss]
    rfl
  · obtain ⟨found, hfound, hiff⟩ := begins_iff hd host t
    have hopen : NoticePart.open? ps t = found := by
      rw [Bool.eq_iff_iff, NoticePart.open?_iff, hiff]
    rw [hps, hcss]
    simp only [Option.bind_eq_bind, Option.bind_some, hy]
    cases (Template.segments c.format.toList).any hasYearField with
    | true => simp [hfound, hopen]
    | false => rfl

variable (s : Settings)

/-- **A notice is matched by the pattern of its template**, whatever its years are, and so it is
taken for one of our own. -/
theorem notice_fits_pattern (hb : s.copyright.IsBare) {first current : Int}
    (hf : Copyright.IsFourDigit first) (hc : Copyright.IsFourDigit current) :
    ∃ t cs, (s.withYears first current).copyrightText = .ok t ∧
      noticePattern? s.copyright = some cs ∧ begins s.host cs t = .ok true ∧
        s.isOwnText t = true := by
  have hb' : (s.withYears first current).copyright.IsBare := ⟨hb.segments, hb.year⟩
  have hy : (s.withYears first current).copyright.HasFourDigits := ⟨hf, hc⟩
  set c := (s.withYears first current).copyright
  set t := c.noticeText (Template.segments s.copyright.format.toList)
  have hopen := Copyright.open?_noticeText hy hb.segments
  have hpattern := begins_noticePattern s.copyright s.host t
  rw [Copyright.noticeShape?_of_isBare hb, Option.map_some] at hpattern
  obtain ⟨cs, hcs, hbegins⟩ := Option.map_eq_some_iff.mp hpattern
  refine ⟨t, cs, copyrightText_of_isBare _ hb' hy, hcs, ?_, isOwnText_noticeText s hb rfl hy⟩
  rw [hbegins]
  exact congrArg Except.ok hopen

/-- A template with braces in its text, a pair of years before a comma, and a holder whose name
could be read as a pattern. -/
def starred : Settings :=
  { Settings.default 2025 with
    copyright := ⟨"A+B (x|y)*", 2025, 2025,
      "[c] \x7b\x7b\x7byears\x7d\x7d\x7d, \x7bholder\x7d. $\x7bstart_year\x7d"⟩ }

lemma segments_starred : Template.segments starred.copyright.format.toList =
    [.literal "[c] \x7b".toList, .literal [], .field ⟨"years".toList, none, []⟩,
      .literal "\x7d".toList, .literal ", ".toList, .field ⟨"holder".toList, none, []⟩,
      .literal ". $".toList, .field ⟨"start_year".toList, none, []⟩] := by
  cbv

lemma isBare_starred : starred.copyright.IsBare where
  segments := by
    rw [segments_starred]
    simp only [List.forall_mem_cons]
    refine ⟨trivial, trivial, ⟨⟨rfl, rfl⟩, by decide⟩, trivial, trivial,
      ⟨⟨rfl, rfl⟩, by decide⟩, trivial, ⟨⟨rfl, rfl⟩, by decide⟩, by simp⟩
  year := ⟨⟨"years".toList, none, []⟩, by rw [segments_starred]; simp,
    by show String.ofList _ ∈ Copyright.yearFields; decide⟩

theorem starred_recognizes_2019_2024 :
    starred.isOwnText "[c] \x7b2019, 2024\x7d, A+B (x|y)*. $2019" = true := by
  have hfirst : Copyright.IsFourDigit 2019 := ⟨by decide, by decide⟩
  have hcurrent : Copyright.IsFourDigit 2024 := ⟨by decide, by decide⟩
  obtain ⟨t, cs, ht, -, -, hown⟩ :=
    notice_fits_pattern starred isBare_starred hfirst hcurrent
  have htext : (starred.withYears 2019 2024).copyrightText =
      .ok (Text.ofString "[c] \x7b2019, 2024\x7d, A+B (x|y)*. $2019") := by cbv
  rw [ht] at htext
  rwa [Except.ok.inj htext] at hown

end Settings

end Letterhead
