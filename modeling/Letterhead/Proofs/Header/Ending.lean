import Letterhead.Proofs.Header.Halt
import Letterhead.Proofs.Header.LineStyle
import Letterhead.Proofs.Pattern.Blind

/-!
Files that differ in their line ends only.

A line is compared without blanks at its ends, and what a comment or a place of the header starts
with is not met in a carriage return, so nothing but the configured patterns can tell a line from
the same line with a carriage return at its end. Where they do not, the two files are found, judged
and rebuilt in the same way.
-/

namespace Letterhead

/-- Lines with a line end that is more than a line feed. -/
def Lines.endedBy (e : LineEnd) (ls : List Text) : List Text := ls.map (· ++ e.tail)

namespace LineEnd

variable (e : LineEnd)

lemma endedBy_take (ls : List Text) (n : Nat) :
    Lines.endedBy e (ls.take n) = (Lines.endedBy e ls).take n := List.map_take

lemma endedBy_drop (ls : List Text) (n : Nat) :
    Lines.endedBy e (ls.drop n) = (Lines.endedBy e ls).drop n := List.map_drop

lemma startsWith_append_tail {head : Text} (h : CodePoint.ofChar '\r' ∉ head) (l : Text) :
    Text.startsWith (l ++ e.tail) head = l.startsWith head := by
  cases e with
  | lf => rw [tail, List.append_nil]
  | crlf =>
    rw [Text.startsWith, Text.startsWith, Bool.eq_iff_iff, List.isPrefixOf_iff_prefix,
      List.isPrefixOf_iff_prefix]
    exact ⟨Text.prefix_of_prefix_append_cons h, fun hp => hp.trans (List.prefix_append _ _)⟩

lemma dropHead?_append_tail {head : Text} (h : CodePoint.ofChar '\r' ∉ head) (l : Text) :
    Text.dropHead? head (l ++ e.tail) = (Text.dropHead? head l).map (· ++ e.tail) := by
  cases hd : Text.dropHead? head l with
  | some r =>
    rw [Text.dropHead?_eq_some_iff] at hd
    rw [Option.map_some, Text.dropHead?_eq_some_iff, hd, List.append_assoc]
  | none =>
    rw [Option.map_none, Option.eq_none_iff_forall_ne_some]
    intro r hr
    have hstarts : Text.startsWith (l ++ e.tail) head = true := by
      rw [Text.dropHead?_eq_some_iff.mp hr]
      simp [Text.startsWith]
    rw [startsWith_append_tail e h] at hstarts
    obtain ⟨r', hr'⟩ := List.isPrefixOf_iff_prefix.mp hstarts
    rw [Text.dropHead?_eq_some_iff.mpr hr'.symm] at hd
    exact absurd hd (by simp)

lemma trimLeft_startsWith_append_tail {head : Text} (h : CodePoint.ofChar '\r' ∉ head) (l : Text) :
    (Text.trimLeft (l ++ e.tail)).startsWith head = l.trimLeft.startsWith head := by
  cases hb : l.isBlank with
  | false => rw [Text.trimLeft_append hb, startsWith_append_tail e h]
  | true =>
    have hboth : Text.isBlank (l ++ e.tail) = true := by simp [hb]
    rw [Text.trimLeft_eq_nil.mpr hb, Text.trimLeft_eq_nil.mpr hboth]

end LineEnd

/-! ### Where the header goes -/

namespace Placement

variable (s : Settings) (e : LineEnd) (ls : List Text) (filename : String)

lemma isShebang_append_tail (l : Text) : isShebang (l ++ e.tail) = isShebang l :=
  e.startsWith_append_tail (by decide) l

lemma isXmlDeclaration_append_tail (l : Text) :
    isXmlDeclaration (l ++ e.tail) = isXmlDeclaration l :=
  e.trimLeft_startsWith_append_tail (by decide) l

lemma isFence_append_tail (l : Text) : isFence (l ++ e.tail) = isFence l := by
  simp [isFence]

lemma isHeading_append_tail (l : Text) : isHeading (l ++ e.tail) = isHeading l := by
  simp [isHeading]

lemma oneIf_endedBy {p : Text → Bool} (hp : ∀ l, p (l ++ e.tail) = p l) :
    oneIf p (Lines.endedBy e ls) = oneIf p ls := by
  cases ls with
  | nil => rfl
  | cons l ls => rw [oneIf, oneIf, firstIs, firstIs, Lines.endedBy, List.map_cons, List.head?_cons,
      List.head?_cons, Option.any_some, Option.any_some, hp]

lemma throughFence_endedBy : throughFence (Lines.endedBy e ls) = throughFence ls := by
  induction ls with
  | nil => rfl
  | cons l ls ih =>
    rw [Lines.endedBy, List.map_cons, throughFence, throughFence, isFence_append_tail,
      ← Lines.endedBy, ih]

lemma frontMatterLength_endedBy :
    frontMatterLength (Lines.endedBy e ls) = frontMatterLength ls := by
  cases ls with
  | nil => rfl
  | cons l ls =>
    rw [Lines.endedBy, List.map_cons, frontMatterLength, frontMatterLength, isFence_append_tail,
      ← Lines.endedBy, throughFence_endedBy]

lemma afterShebang_endedBy : afterShebang (Lines.endedBy e ls) = afterShebang ls :=
  oneIf_endedBy e ls (isShebang_append_tail e)

lemma afterDeclaration_endedBy :
    afterDeclaration s (Lines.endedBy e ls) = afterDeclaration s ls := by
  rw [afterDeclaration, afterShebang_endedBy, ← e.endedBy_drop, oneIf_endedBy, afterDeclaration]
  exact fun l => by rw [isXmlDeclaration_append_tail]

lemma afterFrontMatter_endedBy :
    afterFrontMatter s (Lines.endedBy e ls) filename = afterFrontMatter s ls filename := by
  rw [afterFrontMatter, afterDeclaration_endedBy, ← e.endedBy_drop, frontMatterLength_endedBy,
    afterFrontMatter]

lemma offset_endedBy : offset s (Lines.endedBy e ls) filename = offset s ls filename := by
  rw [offset_eq, afterFrontMatter_endedBy, ← e.endedBy_drop, oneIf_endedBy, offset_eq]
  exact fun l => by rw [isHeading_append_tail]

end Placement

/-! ### What a line is -/

lemma CommentStyle.textOf?_append_tail {style : CommentStyle} (l : Text) (e : LineEnd) :
    style.textOf? (l ++ e.tail) = style.textOf? l := by
  cases style with
  | line m => simp [textOf?]
  | html => simp [textOf?]
  | block =>
    rw [textOf?, textOf?, e.dropHead?_append_tail (by decide), Option.map_map]
    exact congrArg (Option.map · _) (funext fun t => LineEnd.trim_append_tail t e)

namespace Settings

variable (s : Settings) {h : Header} {ls : List Text} {ext filename : String} {sc : Scan}
  (e : LineEnd)

/-- The patterns that are asked about a line find the same in it with the line end: none is asked
about a line of the header, and notices of others are told among lines that are not to be replaced
and not our own. -/
def ReadsAlike (h : Header) (l : Text) : Prop :=
  s.lineKind h l = .copyright ∨ s.lineKind h l = .license ∨
    s.isReplaced (l ++ e.tail) = s.isReplaced l ∧
      (s.isReplaced l = true ∨ s.isOwnLine h.style l = true ∨
        Pattern.anyOccurs s.host s.thirdParty.patterns (l ++ e.tail) =
          Pattern.anyOccurs s.host s.thirdParty.patterns l)

lemma lineKind_append_tail_iff (l : Text) :
    s.lineKind h (l ++ e.tail) = s.lineKind h l ↔ s.ReadsAlike e h l := by
  have hown : s.isOwnLine h.style (l ++ e.tail) = s.isOwnLine h.style l := by
    rw [isOwnLine, isOwnLine, CommentStyle.textOf?_append_tail]
  have hspdx : isSpdxLine h.style (l ++ e.tail) = isSpdxLine h.style l := by
    rw [isSpdxLine, isSpdxLine, CommentStyle.textOf?_append_tail]
  have hdef : ∀ l, s.lineKind h l =
      if !l.trim.isEmpty && l.trim == h.copyright.trim then .copyright
      else if !l.trim.isEmpty && h.license.any (fun license => l.trim == Text.trim license) then
        .license
      else if s.isReplaced l then .replace
      else if s.isOwnLine h.style l then .ownStale
      else if !s.isReplaced l && Pattern.anyOccurs s.host s.thirdParty.patterns l then .thirdParty
      else if isSpdxLine h.style l then .spdxStale
      else .content := fun l => rfl
  unfold ReadsAlike
  rw [hdef, hdef, LineEnd.trim_append_tail, hown, hspdx]
  split
  · simp
  · split
    · simp
    · generalize s.isReplaced l = a, s.isReplaced (l ++ e.tail) = a', s.isOwnLine h.style l = o,
        Pattern.anyOccurs s.host s.thirdParty.patterns l = b,
        Pattern.anyOccurs s.host s.thirdParty.patterns (l ++ e.tail) = b', isSpdxLine h.style l = x
      revert a a' o b b' x
      decide

/-! ### What is found in a file -/

lemma windowKinds_endedBy (h : Header) (seen notices : Nat) {ls : List Text}
    (halike : ∀ l ∈ ls.take (s.windowKinds h seen notices ls).length,
      s.lineKind h (l ++ e.tail) = s.lineKind h l) :
    s.windowKinds h seen notices (Lines.endedBy e ls) = s.windowKinds h seen notices ls := by
  induction ls generalizing seen notices with
  | nil => rfl
  | cons l ls ih =>
    rw [windowKinds_cons] at halike
    rw [Lines.endedBy, List.map_cons, windowKinds_cons, windowKinds_cons, ← Lines.endedBy]
    split
    · next hin =>
      rw [if_pos hin, List.length_cons, List.take_succ_cons, List.forall_mem_cons] at halike
      rw [halike.1, ih _ _ halike.2]
    · rfl

lemma windowKinds_endedBy_iff (h : Header) (ls : List Text) :
    s.windowKinds h 0 0 (Lines.endedBy e ls) = s.windowKinds h 0 0 ls ↔
      ∀ l ∈ ls.take (s.windowKinds h 0 0 ls).length, s.ReadsAlike e h l := by
  constructor
  · intro heq l hl
    have hended := s.windowKinds_eq_map h 0 0 (Lines.endedBy e ls)
    have hplain := s.windowKinds_eq_map h 0 0 ls
    rw [heq, ← e.endedBy_take, Lines.endedBy, List.map_map] at hended
    have hkind := List.map_inj_left.mp (hended.symm.trans hplain) l hl
    exact (s.lineKind_append_tail_iff e l).mp hkind
  · intro halike
    exact s.windowKinds_endedBy e h 0 0 fun l hl =>
      (s.lineKind_append_tail_iff e l).mpr (halike l hl)

/-- The patterns find the same in the lines of the file that they are asked about, and none ends the
run for one of the files only. -/
structure JudgesAlike (ext filename : String) (ls : List Text) : Prop where
  halt : s.halt? (Lines.endedBy e ls) ext filename = s.halt? ls ext filename
  generated : s.detection.skipGenerated = true →
    ((Lines.endedBy e ls).take 2).any (Pattern.anyOccurs s.host s.detection.generatedPatterns) =
      (ls.take 2).any (Pattern.anyOccurs s.host s.detection.generatedPatterns)
  window : ∀ sc, s.inspect ls ext filename = .ok sc → ∀ l ∈ sc.window ls, s.ReadsAlike e sc.header l

lemma isGenerated_endedBy_iff (ls : List Text) :
    s.isGenerated (Lines.endedBy e ls) = s.isGenerated ls ↔
      (s.detection.skipGenerated = true →
        ((Lines.endedBy e ls).take 2).any (Pattern.anyOccurs s.host s.detection.generatedPatterns) =
          (ls.take 2).any (Pattern.anyOccurs s.host s.detection.generatedPatterns)) := by
  unfold isGenerated
  cases s.detection.skipGenerated <;> simp

lemma inspect_endedBy_iff (ls : List Text) :
    s.inspect (Lines.endedBy e ls) ext filename = s.inspect ls ext filename ↔
      ∀ sc, s.inspect ls ext filename = .ok sc →
        ∀ l ∈ sc.window ls, s.ReadsAlike e sc.header l := by
  cases hr : Header.render s ext with
  | error err =>
    simp [s.inspect_of_error hr]
  | ok h =>
    rw [s.inspect_of_render hr, s.inspect_of_render hr, Placement.offset_endedBy, ← e.endedBy_drop]
    constructor
    · rintro heq sc ⟨⟩
      exact (s.windowKinds_endedBy_iff e h _).mp (by simpa using heq)
    · intro halike
      rw [(s.windowKinds_endedBy_iff e h _).mpr (halike _ rfl)]

/-! ### What becomes of a file -/

lemma materialThrough_endedBy (closer : Text) (found : Bool) (es : List Entry) :
    s.materialThrough closer found (es.map fun x => (x.1 ++ e.tail, x.2)) =
      s.materialThrough closer found es := by
  induction es generalizing found with
  | nil => rfl
  | cons x es ih =>
    obtain ⟨l, k⟩ := x
    rw [List.map_cons, materialThrough_cons, materialThrough_cons, innerText_append_tail,
      closes_append_tail, ih]

lemma removedBlock?_endedBy (l : Text) (es : List Entry) :
    s.removedBlock? (l ++ e.tail) (es.map fun x => (x.1 ++ e.tail, x.2)) =
      s.removedBlock? l es := by
  unfold removedBlock?
  rw [closerOf?_append_tail]
  exact congrArg _ (funext fun closer => s.materialThrough_endedBy e closer false es)

lemma survivors_endedBy (phase : Phase) (es : List Entry) :
    s.survivors phase (es.map fun x => (x.1 ++ e.tail, x.2)) =
      Lines.endedBy e (s.survivors phase es) := by
  induction es generalizing phase with
  | nil => cases phase <;> rfl
  | cons x es ih =>
    obtain ⟨l, k⟩ := x
    rw [List.map_cons]
    by_cases hp : ∃ n, phase = .removing (n + 1)
    · obtain ⟨n, rfl⟩ := hp
      exact ih _
    · have hp' : ∀ n, phase ≠ .removing (n + 1) := by simpa using hp
      rw [s.survivors_cons hp', s.survivors_cons hp', removedBlock?_endedBy, ih]
      simp only [Text.isBlank_append, LineEnd.isBlank_tail, Bool.and_true]
      split
      · rfl
      · split
        · rw [ih]
        · split
          · rw [ih]
          · rfl

lemma rebuild_endedBy (sc : Scan) (ls : List Text) :
    s.rebuild sc (Lines.endedBy e ls) e = Lines.endedBy e (s.rebuild sc ls .lf) := by
  have hentries : ((Lines.endedBy e ls).drop sc.offset).zip sc.kinds =
      ((ls.drop sc.offset).zip sc.kinds).map fun x => (x.1 ++ e.tail, x.2) := by
    rw [← e.endedBy_drop, Lines.endedBy, List.zip_map_left]
    rfl
  have hnotices : sc.notices (Lines.endedBy e ls) = Lines.endedBy e (sc.notices ls) := by
    rw [Scan.notices, hentries, Scan.notices, Lines.endedBy, List.filterMap_map,
      List.map_filterMap]
    refine List.filterMap_congr fun x _ => ?_
    by_cases hk : x.2 = .thirdParty <;> simp [hk]
  have hheader : sc.header.lines.map (· ++ e.tail) =
      Lines.endedBy e (sc.header.lines.map (· ++ LineEnd.lf.tail)) := by
    simp [Lines.endedBy, LineEnd.tail]
  have hinserted :
      s.inserted sc (Lines.endedBy e ls) e = Lines.endedBy e (s.inserted sc ls .lf) := by
    unfold inserted
    rw [hnotices, hheader]
    cases s.thirdParty.action <;> simp [Lines.endedBy]
  have hseparator :
      separator sc (Lines.endedBy e ls) e = Lines.endedBy e (separator sc ls .lf) := by
    have hblank : ((Lines.endedBy e ls)[sc.offset]?).any Text.isBlank =
        (ls[sc.offset]?).any Text.isBlank := by
      rw [Lines.endedBy, List.getElem?_map]
      cases ls[sc.offset]? <;> simp
    unfold separator
    rw [hblank]
    split <;> simp [Lines.endedBy, LineEnd.tail]
  rw [rebuild, hinserted, hseparator, hentries, survivors_endedBy, ← e.endedBy_take,
    ← e.endedBy_drop, rebuild]
  simp only [Lines.endedBy, List.map_append]

lemma endedBy_inj {ls ls' : List Text} :
    Lines.endedBy e ls = Lines.endedBy e ls' ↔ ls = ls' :=
  (List.map_injective_iff.mpr (List.append_left_injective e.tail)).eq_iff

end Settings

/-- The same normal form with another line end. -/
def Normalized.endedBy (e : LineEnd) (n : Normalized) : Normalized :=
  { n with lines := Lines.endedBy e n.lines }

namespace Settings

variable (s : Settings) {h : Header} {ls : List Text} {ext filename : String} {sc : Scan}
  (e : LineEnd)

lemma normalize_endedBy (hg : s.isGenerated (Lines.endedBy e ls) = s.isGenerated ls)
    (hi : s.inspect (Lines.endedBy e ls) ext filename = s.inspect ls ext filename) :
    s.normalize (Lines.endedBy e ls) ext filename e =
      (s.normalize ls ext filename .lf).map (Normalized.endedBy e) := by
  cases hgen : s.isGenerated ls with
  | true =>
    rw [s.normalize_of_generated (hg.trans hgen), s.normalize_of_generated hgen]
    rfl
  | false =>
    cases hscan : s.inspect ls ext filename with
    | error err =>
      rw [s.normalize_of_error (hg.trans hgen) (hi.trans hscan), s.normalize_of_error hgen hscan]
      rfl
    | ok sc =>
      cases hc : sc.isCorrect with
      | true =>
        rw [s.normalize_of_correct (hg.trans hgen) (hi.trans hscan) hc,
          s.normalize_of_correct hgen hscan hc]
        rfl
      | false =>
        rw [s.normalize_of_incorrect (hg.trans hgen) (hi.trans hscan) hc,
          s.normalize_of_incorrect hgen hscan hc]
        simp only [rebuild_endedBy, endedBy_inj]
        rfl

lemma checkLines_endedBy (hg : s.isGenerated (Lines.endedBy e ls) = s.isGenerated ls)
    (hi : s.inspect (Lines.endedBy e ls) ext filename = s.inspect ls ext filename)
    (file : String) :
    s.checkLines file (Lines.endedBy e ls) ext filename = s.checkLines file ls ext filename := by
  unfold checkLines
  rw [hg, hi, Lines.endedBy, List.length_map]

section Blind

variable (hp : ∀ p ∈ s.linePatterns, Pattern.isBlind s.host p = true)

include hp

lemma generatedHalt?_endedBy (ls : List Text) :
    s.generatedHalt? (Lines.endedBy e ls) = s.generatedHalt? ls := by
  have hgenerated : ∀ p ∈ s.detection.generatedPatterns, Pattern.isBlind s.host p = true :=
    fun p h => hp p (by simp [linePatterns, h])
  induction ls with
  | nil => rfl
  | cons l ls ih =>
    rw [Lines.endedBy, List.map_cons, generatedHalt?, generatedHalt?,
      Pattern.halt?_append_tail hgenerated, Pattern.anyOccurs_append_tail hgenerated,
      ← Lines.endedBy, ih]

lemma lineHalt?_append_tail (h : Header) (l : Text) :
    s.lineHalt? h (l ++ e.tail) = s.lineHalt? h l := by
  have hreplace : ∀ p ∈ s.detection.replacePatterns, Pattern.isBlind s.host p = true :=
    fun p h => hp p (by simp [linePatterns, h])
  have hothers : ∀ p ∈ s.thirdParty.patterns, Pattern.isBlind s.host p = true :=
    fun p h => hp p (by simp [linePatterns, h])
  have hown : s.isOwnLine h.style (l ++ e.tail) = s.isOwnLine h.style l := by
    rw [isOwnLine, isOwnLine, CommentStyle.textOf?_append_tail]
  rw [lineHalt?, lineHalt?, LineEnd.trim_append_tail, Pattern.halt?_append_tail hreplace,
    Pattern.halt?_append_tail hothers, isReplaced, Pattern.anyOccurs_append_tail hreplace, hown,
    isReplaced]

lemma judgesAlike_of_isBlind (ext filename : String) (ls : List Text) :
    s.JudgesAlike e ext filename ls := by
  have hgenerated : s.detection.skipGenerated = true →
      ((Lines.endedBy e ls).take 2).any (Pattern.anyOccurs s.host s.detection.generatedPatterns) =
        (ls.take 2).any (Pattern.anyOccurs s.host s.detection.generatedPatterns) := by
    intro _
    rw [← e.endedBy_take, Lines.endedBy, List.any_map]
    exact congrArg _ (funext fun l => Pattern.anyOccurs_append_tail
      (fun p h => hp p (by simp [linePatterns, h])) l e)
  have hwindow : ∀ sc, s.inspect ls ext filename = .ok sc →
      ∀ l ∈ sc.window ls, s.ReadsAlike e sc.header l := fun sc _ l _ =>
    Or.inr (Or.inr ⟨Pattern.anyOccurs_append_tail (fun p h => hp p (by simp [linePatterns, h])) l e,
      Or.inr (Or.inr (Pattern.anyOccurs_append_tail
        (fun p h => hp p (by simp [linePatterns, h])) l e))⟩)
  refine ⟨?_, hgenerated, hwindow⟩
  unfold halt?
  rw [← e.endedBy_take, s.generatedHalt?_endedBy e hp,
    (s.isGenerated_endedBy_iff e ls).mpr hgenerated, (s.inspect_endedBy_iff e ls).mpr hwindow]
  cases s.inspect ls ext filename with
  | error err => rfl
  | ok sc =>
    have hlines : sc.window (Lines.endedBy e ls) = Lines.endedBy e (sc.window ls) := by
      rw [Scan.window, ← e.endedBy_drop, ← e.endedBy_take, Scan.window]
    have hhalt : s.lineHalt? sc.header ∘ (· ++ e.tail) = s.lineHalt? sc.header :=
      funext (s.lineHalt?_append_tail e hp sc.header)
    dsimp only
    rw [hlines, Lines.endedBy, List.findSome?_map, hhalt]

end Blind

/-- **Files that differ in line ends only are judged alike**, just if the configured patterns judge
their lines alike. The header goes to the same line in any case. If the patterns find the same in
the first two lines and in those lines of the window that they are asked about, and end a run for
both files or for none, then both files are generated or neither is, the window and the kinds of its
lines are the same, and so are the issue and what becomes of the file. Patterns that do not see a
carriage return at the end of a line are of this kind in all files. -/
theorem endedBy_judged_alike (ext filename : String) (ls : List Text) :
    Placement.offset s (Lines.endedBy e ls) filename = Placement.offset s ls filename ∧
    (s.halt? (Lines.endedBy e ls) ext filename = s.halt? ls ext filename ∧
        s.isGenerated (Lines.endedBy e ls) = s.isGenerated ls ∧
        s.inspect (Lines.endedBy e ls) ext filename = s.inspect ls ext filename ↔
      s.JudgesAlike e ext filename ls) ∧
    (s.JudgesAlike e ext filename ls →
      (∀ file, s.checkLines file (Lines.endedBy e ls) ext filename =
        s.checkLines file ls ext filename) ∧
      s.normalize (Lines.endedBy e ls) ext filename e =
        (s.normalize ls ext filename .lf).map (Normalized.endedBy e)) ∧
    ((∀ p ∈ s.linePatterns, Pattern.isBlind s.host p = true) →
      s.JudgesAlike e ext filename ls) := by
  have hiff : s.halt? (Lines.endedBy e ls) ext filename = s.halt? ls ext filename ∧
      s.isGenerated (Lines.endedBy e ls) = s.isGenerated ls ∧
      s.inspect (Lines.endedBy e ls) ext filename = s.inspect ls ext filename ↔
        s.JudgesAlike e ext filename ls := by
    rw [isGenerated_endedBy_iff, inspect_endedBy_iff]
    exact ⟨fun h => ⟨h.1, h.2.1, h.2.2⟩, fun h => ⟨h.halt, h.generated, h.window⟩⟩
  refine ⟨Placement.offset_endedBy s e ls filename, hiff, fun h => ?_,
    fun hp => s.judgesAlike_of_isBlind e hp ext filename ls⟩
  obtain ⟨-, hg, hi⟩ := hiff.mpr h
  exact ⟨s.checkLines_endedBy e hg hi, s.normalize_endedBy e hg hi⟩

theorem guest_judged_alike :
    (∀ p ∈ leaving.linePatterns, Pattern.isBlind leaving.host p = true) ∧
    leaving.inspect (Lines.endedBy .crlf guestLines) ".go" "a.go" = .ok guestScan := by
  have hblind : Pattern.isBlind .usual "Oracle" = true := by cbv
  have hp : ∀ p ∈ leaving.linePatterns, Pattern.isBlind leaving.host p = true := by
    intro p hp
    obtain rfl : p = "Oracle" := List.mem_singleton.mp hp
    exact hblind
  obtain ⟨-, hiff, -, halike⟩ := endedBy_judged_alike leaving .crlf ".go" "a.go" guestLines
  exact ⟨hp, (hiff.mpr (halike hp)).2.2.trans inspect_guest⟩

/-! ### A pattern that asks for the end of the line -/

/-- Settings under which a line that ends in a name is replaced. -/
def replacing : Settings :=
  { ours with detection := { Detection.default with replacePatterns := ["Oracle$"] } }

def oracleLines : List Text := ["// Oracle"]

lemma render_replacing : Header.render replacing ".go" = .ok goHeader := by cbv

lemma inspect_oracle :
    replacing.inspect oracleLines ".go" "a.go" = .ok ⟨goHeader, 0, [.replace]⟩ := by
  have hkind : replacing.lineKind goHeader "// Oracle" = .replace := by cbv
  refine replacing.inspect_eq_ok_iff.mpr ⟨render_replacing, by decide, ?_⟩
  rw [List.drop_zero, oracleLines, windowKinds_cons, hkind]
  decide

def oracleLinesReturn : List Text := ["// Oracle\r"]

lemma endedBy_oracleLines : Lines.endedBy .crlf oracleLines = oracleLinesReturn := by decide

lemma inspect_oracle_return :
    replacing.inspect (Lines.endedBy .crlf oracleLines) ".go" "a.go" =
      .ok ⟨goHeader, 0, [.content]⟩ := by
  have hreplace : replacing.isReplaced "// Oracle\r" = false := by cbv
  have hown : replacing.isOwnLine goHeader.style "// Oracle\r" = false := by cbv
  have hspdx : isSpdxLine goHeader.style "// Oracle\r" = false := by cbv
  have hother : Text.trim "// Oracle\r" ≠ goHeader.copyright.trim := by decide
  have hthird : replacing.isThirdParty "// Oracle\r" = false := by
    simp [isThirdParty, hreplace]
    rfl
  have hlicense : goHeader.license = none := rfl
  have hkind : replacing.lineKind goHeader "// Oracle\r" = .content := by
    simp [lineKind, hother, hlicense, hreplace, hown, hthird, hspdx]
  rw [endedBy_oracleLines]
  refine replacing.inspect_eq_ok_iff.mpr ⟨render_replacing, by decide, ?_⟩
  rw [List.drop_zero, oracleLinesReturn, windowKinds_cons, hkind]
  decide

/-- **Not every file is judged as with other line ends.** The name is not at the end of the line if
a carriage return is. -/
theorem oracle_judged_apart :
    (∀ l ∈ oracleLines, CodePoint.ofChar '\r' ∉ l) ∧
    replacing.inspect oracleLines ".go" "a.go" = .ok ⟨goHeader, 0, [.replace]⟩ ∧
    replacing.inspect (Lines.endedBy .crlf oracleLines) ".go" "a.go" =
      .ok ⟨goHeader, 0, [.content]⟩ ∧
    replacing.checkLines "a.go" oracleLines ".go" "a.go" = .ok (some ⟨"a.go", .incorrect, ""⟩) ∧
    replacing.checkLines "a.go" (Lines.endedBy .crlf oracleLines) ".go" "a.go" =
      .ok (some ⟨"a.go", .missing, ""⟩) := by
  refine ⟨by decide, inspect_oracle, inspect_oracle_return, ?_, ?_⟩
  · rw [checkLines, if_neg (by decide), inspect_oracle]
    rfl
  · rw [checkLines, if_neg (by decide), inspect_oracle_return]
    rfl

end Settings

end Letterhead
