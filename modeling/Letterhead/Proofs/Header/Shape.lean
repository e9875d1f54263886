import Letterhead.Header.Notice
import Letterhead.Proofs.Template.Bare
import Letterhead.Proofs.Text.Part
import Letterhead.Proofs.Text.Trim

/-!
The text of a notice and the shape by which it is recognized come from one template, on two ways:
the one puts values in the place of fields, the other what a field may stand for. They agree on
templates of literal text and bare fields, whatever the years are, as long as these have four
digits.
-/

namespace Letterhead

open Template (Field Segment)

namespace CodePoint

/-- The code points of blanks. -/
def blankValues : List Nat :=
  [9, 10, 11, 12, 13, 28, 29, 30, 31, 32, 0x85, 0xA0, 0x1680, 0x2000, 0x2001, 0x2002, 0x2003,
    0x2004, 0x2005, 0x2006, 0x2007, 0x2008, 0x2009, 0x200A, 0x2028, 0x2029, 0x202F, 0x205F, 0x3000]

lemma mem_blankValues {c : CodePoint} (h : c.isBlank = true) : c.val ∈ blankValues := by
  simp only [isBlank, within, Bool.or_eq_true, Bool.and_eq_true, decide_eq_true_eq,
    beq_iff_eq] at h
  simp only [blankValues, List.mem_cons, List.not_mem_nil, or_false]
  omega

lemma not_isBlank_of_isDigit {c : CodePoint} (h : c.isDigit = true) : c.isBlank = false := by
  have hno : ∀ v ∈ blankValues, isDigit ⟨v⟩ = false := by decide
  by_contra hblank
  rw [hno c.val (mem_blankValues (by simpa using hblank))] at h
  cases h

end CodePoint

namespace Settings

/-- The settings with other years. -/
def withYears (s : Settings) (first current : Int) : Settings :=
  { s with copyright := { s.copyright with startYear := first, currentYear := current } }

namespace Copyright

/-- The fields of a copyright template that stand for a year or for two. -/
def yearFields : List String := ["start_year", "current_year", "years"]

/-- A year or a pair of years stands here. -/
def isYearField (f : Field) : Prop := String.ofList f.name ∈ yearFields

/-- A part of a copyright template that is literal text, or one of its fields and no more. -/
def IsBareSegment : Segment → Prop
  | .literal _ => True
  | .field f => f.IsBare ∧ String.ofList f.name ∈ "holder" :: yearFields
  | .broken _ => False

/-- A copyright template of literal text and bare fields, one of which stands for a year. -/
structure IsBare (c : Copyright) : Prop where
  segments : ∀ seg ∈ Template.segments c.format.toList, IsBareSegment seg
  year : ∃ f, Segment.field f ∈ Template.segments c.format.toList ∧ isYearField f

/-! ### The text of a notice -/

def yearText (i : Int) : Text := Text.ofChars (Number.intText i)

/-- The span of years. -/
def yearsText (c : Copyright) : Text :=
  if c.startYear = c.currentYear then yearText c.currentYear
  else yearText c.startYear ++ (Text.ofChars [',', ' '] ++ yearText c.currentYear)

/-- What a field of a copyright template stands for. -/
def fieldText (c : Copyright) (f : Field) : Text :=
  let name := String.ofList f.name
  if name = "start_year" then yearText c.startYear
  else if name = "current_year" then yearText c.currentYear
  else if name = "years" then c.yearsText
  else c.holder

def segmentText (c : Copyright) : Segment → Text
  | .literal t => Text.ofChars t
  | .field f => c.fieldText f
  | .broken _ => []

def noticeText (c : Copyright) (segs : List Segment) : Text := segs.flatMap c.segmentText

lemma lookUp_fieldText (c : Copyright) (host : Host) {years : String}
    (hyears : Text.ofString years = c.yearsText) {f : Field}
    (hf : String.ofList f.name ∈ "holder" :: yearFields) :
    ∃ v, Template.lookUp ⟨host, copyrightValues c years⟩ f.name = .ok v ∧
      v.plain = c.fieldText f := by
  obtain ⟨name, conversion, spec⟩ := f
  have hname : name = (String.ofList name).toList := String.toList_ofList.symm
  simp only [yearFields, List.mem_cons, List.not_mem_nil, or_false] at hf
  rcases hf with h | h | h | h <;> rw [h] at hname <;> subst hname
  · exact ⟨.text c.holder, by rfl, by rfl⟩
  · exact ⟨.int c.startYear, by rfl, by rfl⟩
  · exact ⟨.int c.currentYear, by rfl, by rfl⟩
  · exact ⟨.text years, by rfl, hyears⟩

lemma expandSegments_noticeText (c : Copyright) (host : Host) {years : String}
    (hyears : Text.ofString years = c.yearsText) {segs : List Segment}
    (h : ∀ seg ∈ segs, IsBareSegment seg) :
    Template.expandSegments ⟨host, copyrightValues c years⟩ 1 segs = .ok (c.noticeText segs) := by
  induction segs with
  | nil => exact Template.expandSegments_nil
  | cons seg segs ih =>
    obtain ⟨hseg, hsegs⟩ := List.forall_mem_cons.mp h
    cases seg with
    | literal t => exact Template.expandSegments_literal t (ih hsegs)
    | field f =>
      obtain ⟨v, hv, hplain⟩ := c.lookUp_fieldText host hyears hseg.2
      rw [Template.expandSegments_bare hseg.1 hv (ih hsegs), hplain]
      rfl
    | broken m => exact hseg.elim

/-! ### Years -/

def IsFourDigit (i : Int) : Prop := 1000 ≤ i ∧ i ≤ 9999

/-- The years are those that a notice is recognized with. -/
structure HasFourDigits (c : Copyright) : Prop where
  start : IsFourDigit c.startYear
  current : IsFourDigit c.currentYear

/-- A decimal digit of ASCII. -/
def isAsciiDigit (c : CodePoint) : Prop := 48 ≤ c.val ∧ c.val ≤ 57

lemma isDigit_of_isAsciiDigit {c : CodePoint} (h : isAsciiDigit c) : c.isDigit = true := by
  obtain ⟨h1, h2⟩ := h
  rw [CodePoint.isDigit, CodePoint.digitValue?, if_pos (by omega), if_pos ⟨h1, h2⟩]
  rfl

lemma length_toDigits {i : Int} (hi : IsFourDigit i) : (Nat.toDigits 10 i.natAbs).length = 4 := by
  obtain ⟨h1, h2⟩ := hi
  have hle := (Nat.length_toDigits_le_iff (b := 10) (n := i.natAbs) (k := 4)
    (by omega) (by omega)).mpr (by omega)
  have hgt := (Nat.length_toDigits_le_iff (b := 10) (n := i.natAbs) (k := 3)
    (by omega) (by omega)).not.mpr (by omega)
  omega

lemma yearText_eq {i : Int} (hi : IsFourDigit i) :
    ∃ a b c d : CodePoint, yearText i = [a, b, c, d] ∧ ∀ x ∈ [a, b, c, d], x.isDigit = true := by
  have hlen := length_toDigits hi
  obtain ⟨h1, h2⟩ := hi
  have hdigits : Number.intText i = Nat.toDigits 10 i.natAbs := if_neg (by omega)
  obtain ⟨a, b, c, d, habcd⟩ : ∃ a b c d, Nat.toDigits 10 i.natAbs = [a, b, c, d] := by
    rcases hds : Nat.toDigits 10 i.natAbs with _ | ⟨a, _ | ⟨b, _ | ⟨c, _ | ⟨d, _ | ⟨e, ds⟩⟩⟩⟩⟩ <;>
      simp [hds] at hlen ⊢
  have hdigit : ∀ x ∈ [a, b, c, d], (CodePoint.ofChar x).isDigit = true := by
    intro x hx
    have h := Nat.isDigit_of_mem_toDigits (b := 10) (by omega) (by omega) (habcd ▸ hx)
    simp only [Char.isDigit, Bool.and_eq_true, decide_eq_true_eq] at h
    exact isDigit_of_isAsciiDigit h
  exact ⟨a, b, c, d, by rw [yearText, hdigits, habcd]; rfl, by simpa using hdigit⟩

lemma afterYear?_yearText {i : Int} (hi : IsFourDigit i) (r : Text) :
    NoticePart.afterYear? (yearText i ++ r) = some r := by
  obtain ⟨a, b, c, d, h, hd⟩ := yearText_eq hi
  simp only [List.mem_cons, List.not_mem_nil, or_false, forall_eq_or_imp, forall_eq] at hd
  simp [h, NoticePart.afterYear?, hd]

lemma afterSecondYear?_yearText {i : Int} (hi : IsFourDigit i) (r : Text) :
    NoticePart.afterSecondYear? (Text.ofChars [',', ' '] ++ yearText i ++ r) = some r := by
  obtain ⟨a, b, c, d, h, hd⟩ := yearText_eq hi
  have ha := CodePoint.not_isBlank_of_isDigit (hd a (by simp))
  have htrim : Text.trimLeft (CodePoint.ofChar ' ' :: (yearText i ++ r)) = yearText i ++ r := by
    rw [h]
    simp [Text.trimLeft, show (CodePoint.ofChar ' ').isBlank = true from by decide, ha]
  rw [List.append_assoc]
  show NoticePart.afterYear? (Text.trimLeft (CodePoint.ofChar ' ' :: (yearText i ++ r))) = some r
  rw [htrim, afterYear?_yearText hi]

lemma yearText?_eq {i : Int} (hi : IsFourDigit i) :
    yearText? i = some (String.ofList (Number.intText i)) := by
  have hlen : (Number.digits i.natAbs).length = 4 := length_toDigits hi
  rw [yearText?, hlen, Number.digitLimit, if_neg (by omega)]

lemma exists_years {c : Copyright} (hy : c.HasFourDigits) :
    ∃ years, c.years? = some years ∧ Text.ofString years = c.yearsText := by
  rw [years?, yearText?_eq hy.start, yearText?_eq hy.current, yearsText]
  split <;> exact ⟨_, rfl, by simp [Text.ofString, Text.ofChars, yearText]⟩

/-! ### The shape of a notice -/

/-- What a part of a template may stand for in a notice of the holder. -/
def shapeOf (holder : String) (seg : Segment) : NoticePart :=
  (NoticePart.ofSegment? holder seg).getD .year

lemma ofField?_eq {f : Field} (holder : String)
    (hf : String.ofList f.name ∈ "holder" :: yearFields) :
    String.ofList f.name = "holder" ∧ NoticePart.ofField? holder f = some (.exactly holder) ∨
    (String.ofList f.name = "start_year" ∨ String.ofList f.name = "current_year") ∧
      NoticePart.ofField? holder f = some .year ∨
    String.ofList f.name = "years" ∧ NoticePart.ofField? holder f = some .years := by
  simp only [yearFields, List.mem_cons, List.not_mem_nil, or_false] at hf
  rcases hf with h | h | h | h <;> simp [NoticePart.ofField?, h]

lemma ofSegment?_eq {seg : Segment} (holder : String) (h : IsBareSegment seg) :
    NoticePart.ofSegment? holder seg = some (shapeOf holder seg) := by
  rw [shapeOf]
  cases seg with
  | literal t => rfl
  | field f =>
    rcases ofField?_eq holder h.2 with ⟨-, h⟩ | ⟨-, h⟩ | ⟨-, h⟩ <;> simp [NoticePart.ofSegment?, h]
  | broken m => exact h.elim

lemma mapM_ofSegment? {segs : List Segment} (holder : String)
    (h : ∀ seg ∈ segs, IsBareSegment seg) :
    segs.mapM (NoticePart.ofSegment? holder) = some (segs.map (shapeOf holder)) := by
  induction segs with
  | nil => rfl
  | cons seg segs ih =>
    obtain ⟨hseg, hsegs⟩ := List.forall_mem_cons.mp h
    rw [List.mapM_cons, ofSegment?_eq holder hseg, ih hsegs]
    rfl

lemma noticeShape?_of_isBare {c : Copyright} (h : c.IsBare) :
    noticeShape? c = some ((Template.segments c.format.toList).map (shapeOf c.holder)) := by
  obtain ⟨f, hf, hyear⟩ := h.year
  rw [noticeShape?, mapM_ofSegment? _ h.segments]
  refine if_pos (List.any_eq_true.mpr ⟨_, List.mem_map_of_mem hf, ?_⟩)
  have hshape : NoticePart.ofField? c.holder f = some (shapeOf c.holder (.field f)) :=
    ofSegment?_eq c.holder (h.segments _ hf)
  rcases ofField?_eq c.holder (h.segments _ hf).2 with ⟨h, -⟩ | ⟨-, h⟩ | ⟨-, h⟩
  · simp [isYearField, h, yearFields] at hyear
  · rw [h] at hshape
    simp [← Option.some.inj hshape]
  · rw [h] at hshape
    simp [← Option.some.inj hshape]

/-! ### The shape fits -/

lemma open?_segmentText {c : Copyright} (hy : c.HasFourDigits) {seg : Segment}
    (hseg : IsBareSegment seg) {ps : List NoticePart} {r : Text}
    (h : NoticePart.open? ps r = true) :
    NoticePart.open? (shapeOf c.holder seg :: ps) (c.segmentText seg ++ r) = true := by
  cases seg with
  | literal t => simp [shapeOf, NoticePart.ofSegment?, NoticePart.open?, segmentText, h]
  | field f =>
    rcases ofField?_eq c.holder hseg.2 with ⟨hname, hf⟩ | ⟨hname, hf⟩ | ⟨hname, hf⟩
    · simp [shapeOf, NoticePart.ofSegment?, hf, NoticePart.open?, segmentText, fieldText, hname, h]
    · rcases hname with hname | hname <;>
        simp [shapeOf, NoticePart.ofSegment?, hf, NoticePart.open?, segmentText, fieldText, hname,
          afterYear?_yearText hy.start, afterYear?_yearText hy.current, h]
    · have htext : c.segmentText (.field f) = c.yearsText := by
        simp [segmentText, fieldText, hname]
      rw [htext, yearsText]
      simp only [shapeOf, NoticePart.ofSegment?, hf, Option.getD_some, NoticePart.open?]
      by_cases heq : c.startYear = c.currentYear
      · rw [if_pos heq, afterYear?_yearText hy.current]
        simp [h]
      · -- what follows the first year need not fit, since the shape knows a second one
        rw [if_neg heq, List.append_assoc, afterYear?_yearText hy.start]
        simp only [afterSecondYear?_yearText hy.current, h, Bool.or_true]
  | broken m => exact hseg.elim

/-- **The shape of a notice fits its text**, whatever the years are. -/
lemma open?_noticeText {c : Copyright} (hy : c.HasFourDigits) {segs : List Segment}
    (h : ∀ seg ∈ segs, IsBareSegment seg) :
    NoticePart.open? (segs.map (shapeOf c.holder)) (c.noticeText segs) = true := by
  induction segs with
  | nil => rfl
  | cons seg segs ih =>
    obtain ⟨hseg, hsegs⟩ := List.forall_mem_cons.mp h
    exact open?_segmentText hy hseg (ih hsegs)

lemma afterYear?_quote (t : Text) :
    NoticePart.afterYear? (CodePoint.ofChar '"' :: t) = none := by
  have hq : (CodePoint.ofChar '"').isDigit = false := by decide
  unfold NoticePart.afterYear?
  split
  · next heq =>
    obtain ⟨rfl, -⟩ := List.cons.inj heq
    simp [hq]
  · rfl

lemma open?_exactly_quote {ps : List NoticePart} {t z : Text}
    (h : NoticePart.open? ps (CodePoint.ofChar '"' :: z) = false) :
    NoticePart.open? (.exactly t :: ps) (CodePoint.ofChar '"' :: (t ++ z)) = false := by
  rw [NoticePart.open?]
  split
  · next hr => rw [Text.eq_cons_of_dropHead?_cons hr, h]
  · rfl

/-- **The shape does not fit a quoted text**: up to the first year it would have to be made of
quotes only, and a year is not. -/
lemma open?_quote_noticeText {c : Copyright} {segs : List Segment}
    (h : ∀ seg ∈ segs, IsBareSegment seg) (hyear : ∃ f, Segment.field f ∈ segs ∧ isYearField f)
    (z : Text) :
    NoticePart.open? (segs.map (shapeOf c.holder))
      (CodePoint.ofChar '"' :: (c.noticeText segs ++ z)) = false := by
  induction segs with
  | nil => simp at hyear
  | cons seg segs ih =>
    obtain ⟨hseg, hsegs⟩ := List.forall_mem_cons.mp h
    obtain ⟨f, hf, hfyear⟩ := hyear
    rw [noticeText, List.flatMap_cons, List.append_assoc, List.map_cons]
    cases seg with
    | literal t =>
      exact open?_exactly_quote (ih hsegs ⟨f, by simpa using hf, hfyear⟩)
    | field g =>
      rcases ofField?_eq c.holder hseg.2 with ⟨hname, hg⟩ | ⟨-, hg⟩ | ⟨-, hg⟩ <;>
        simp only [shapeOf, NoticePart.ofSegment?, hg, Option.getD_some]
      · have htext : c.segmentText (.field g) = Text.ofString c.holder := by
          simp [segmentText, fieldText, hname]
        rw [htext]
        refine open?_exactly_quote (ih hsegs ⟨f, ?_, hfyear⟩)
        refine (List.mem_cons.mp hf).resolve_left fun heq => ?_
        obtain rfl := Segment.field.inj heq
        simp [isYearField, hname, yearFields] at hfyear
      · rw [NoticePart.open?, afterYear?_quote]
      · rw [NoticePart.open?, afterYear?_quote]
    | broken m => exact hseg.elim

end Copyright

end Settings

end Letterhead
