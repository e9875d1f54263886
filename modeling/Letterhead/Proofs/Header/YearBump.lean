import Letterhead.Proofs.Header.Addition
import Letterhead.Proofs.Header.Render
import Letterhead.Proofs.Header.Shape

/-!
A header of other years is replaced without a trace where the window shows the empty line below
it. That line came in with the header and goes with it; if it lies below the window, it stays, and
one line more comes in with every new year.
-/

namespace Letterhead

namespace Header

/-- The lines of text of a header neither open nor close a comment, and say more than filler. -/
structure IsPlain (h : Header) : Prop where
  opens : ∀ l ∈ h.copyright :: h.license.toList, CommentStyle.closerOf? l = none
  closes : h.style = .block → ∀ l ∈ h.copyright :: h.license.toList, Settings.closes "*/" l = false
  found : h.style = .block → Settings.isFiller h.copyright.trim = false

end Header

namespace Settings

variable (s : Settings) {h old : Header} {e : LineEnd}

/-! ### An old header goes -/

lemma removes_of_isStale {k : LineKind} (h : k.isStale = true) : s.removes k = true := by
  cases k <;> first | rfl | simp [LineKind.isStale] at h

lemma survivors_line {phase : Phase} (hphase : ∀ n, phase ≠ .removing (n + 1)) {l : Text}
    {k : LineKind} (hopen : CommentStyle.closerOf? l = none) (hb : l.isBlank = false)
    (hk : s.removes k = true) (es : List Entry) :
    s.survivors phase ((l, k) :: es) = s.survivors .removed es := by
  have hnone : s.removedBlock? l es = none := by rw [removedBlock?, hopen]; rfl
  rw [s.survivors_cons hphase, if_neg (by simp [hb]), hnone]
  simp [hk]

lemma survivors_removing (xs es : List Entry) (hne : xs ≠ []) :
    s.survivors (.removing xs.length) (xs ++ es) = s.survivors .removed es := by
  induction xs with
  | nil => exact absurd rfl hne
  | cons x xs ih =>
    rcases xs with _ | ⟨y, xs⟩
    · rfl
    · exact ih (by simp)

/-- The lines as they are seen under a header. -/
def entriesOf (h : Header) (ls : List Text) : List Entry := ls.map fun l => (l, s.lineKind h l)

@[simp] lemma entriesOf_nil (h : Header) : s.entriesOf h [] = [] := rfl

@[simp] lemma entriesOf_cons (h : Header) (l : Text) (ls : List Text) :
    s.entriesOf h (l :: ls) = (l, s.lineKind h l) :: s.entriesOf h ls :=
  rfl

@[simp] lemma entriesOf_append (h : Header) (ls ls' : List Text) :
    s.entriesOf h (ls ++ ls') = s.entriesOf h ls ++ s.entriesOf h ls' :=
  List.map_append

@[simp] lemma map_fst_entriesOf (h : Header) (ls : List Text) :
    (s.entriesOf h ls).map Prod.fst = ls := by
  simp [entriesOf, Function.comp_def]

lemma survivors_lines {phase : Phase} (hphase : ∀ n, phase ≠ .removing (n + 1)) {ls : List Text}
    (hne : ls ≠ []) (hl : ∀ l ∈ ls, CommentStyle.closerOf? l = none ∧ l.isBlank = false ∧
      s.removes (s.lineKind h l) = true) (es : List Entry) :
    s.survivors phase (s.entriesOf h ls ++ es) = s.survivors .removed es := by
  induction ls generalizing phase with
  | nil => exact absurd rfl hne
  | cons l ls ih =>
    obtain ⟨⟨hopen, hb, hk⟩, hls⟩ := List.forall_mem_cons.mp hl
    rw [entriesOf_cons, List.cons_append, s.survivors_line hphase hopen hb hk]
    rcases ls with _ | ⟨l', ls⟩
    · rfl
    · exact ih (by simp) (by simp) hls

lemma materialThrough_lines {closer : Text} {ls : List Text}
    (hl : ∀ l ∈ ls, closes closer l = false ∧ s.removes (s.lineKind h l) = true) (found : Bool)
    (es : List Entry) :
    s.materialThrough closer found (s.entriesOf h ls ++ es) =
      (s.materialThrough closer (found || ls.any fun l => !isFiller l.trim) es).map
        (· + ls.length) := by
  induction ls generalizing found with
  | nil => simp
  | cons l ls ih =>
    obtain ⟨⟨hc, hk⟩, hls⟩ := List.forall_mem_cons.mp hl
    have hinner : innerText closer l = l.trim := by
      have hnone : Text.dropTail? closer l.trim = none := by simpa [closes] using hc
      rw [innerText, hnone]
      rfl
    have hm : s.isMaterial (s.lineKind h l) l.trim = true := by simp [isMaterial, hk]
    rw [entriesOf_cons, List.cons_append, materialThrough_cons, hinner, if_pos hm, hc, ih hls,
      List.any_cons, Bool.or_assoc]
    simp [Function.comp_def, Nat.add_assoc]

lemma materialThrough_close (k : LineKind) (e : LineEnd) (es : List Entry) :
    s.materialThrough "*/" true ((Text.ofString CommentStyle.blockClose ++ e.tail, k) :: es) =
      some 1 := by
  have hinner : innerText "*/" (Text.ofString CommentStyle.blockClose) = [] := by decide
  have hc : closes "*/" (Text.ofString CommentStyle.blockClose) = true := by decide
  have hm : s.isMaterial k [] = true := by
    rw [isMaterial, show isFiller [] = true by decide]
    rfl
  rw [materialThrough_cons, innerText_append_tail, hinner, if_pos hm, closes_append_tail, hc]
  rfl

section Old

variable (hd : h.IsDistinct) (hlicense : old.license = h.license)
  (hk : (s.lineKind h (old.copyright ++ e.tail)).isStale = true)

include hd hlicense hk

lemma removes_texts : ∀ l ∈ (old.copyright :: old.license.toList).map (· ++ e.tail),
    s.removes (s.lineKind h l) = true := by
  simp only [List.map_cons, List.forall_mem_cons, List.forall_mem_map, Option.mem_toList]
  refine ⟨s.removes_of_isStale hk, fun l hl => ?_⟩
  rw [s.lineKind_license hd (hlicense ▸ hl)]
  rfl

lemma removedBlock?_old (hp : old.IsPlain) (hblock : old.style = .block) (es : List Entry) :
    s.removedBlock? (Text.ofString CommentStyle.blockOpen ++ e.tail)
      (s.entriesOf h ((old.copyright :: old.license.toList).map (· ++ e.tail) ++
        [Text.ofString CommentStyle.blockClose ++ e.tail]) ++ es) =
      some ((old.copyright :: old.license.toList).length + 1) := by
  set texts := (old.copyright :: old.license.toList).map (· ++ e.tail) with htexts
  have hremoves : ∀ l ∈ texts, s.removes (s.lineKind h l) = true := s.removes_texts hd hlicense hk
  have hcloses : ∀ l ∈ texts, closes (Text.ofString "*/") l = false := by
    intro l hl
    obtain ⟨x, hx, rfl⟩ := List.mem_map.mp hl
    rw [closes_append_tail]
    exact hp.closes hblock x hx
  have hfound : (texts.any fun l => !isFiller l.trim) = true := by
    simp [htexts, hp.found hblock]
  have hcloser : CommentStyle.closerOf? (Text.ofString CommentStyle.blockOpen) =
      some (Text.ofString "*/") := by
    decide
  rw [removedBlock?, closerOf?_append_tail, hcloser, Option.bind_some, entriesOf_append,
    List.append_assoc, s.materialThrough_lines fun l hl => ⟨hcloses l hl, hremoves l hl⟩, hfound]
  simp [htexts, s.materialThrough_close, Nat.add_comm]

lemma survivors_old_block (hp : old.IsPlain) (hblock : old.style = .block) (es : List Entry) :
    s.survivors .copying (s.entriesOf h (old.lines.map (· ++ e.tail)) ++ es) =
      s.survivors .removed es := by
  have hopen : old.opening = [Text.ofString CommentStyle.blockOpen] := if_pos hblock
  have hclose : old.closing = [Text.ofString CommentStyle.blockClose] := if_pos hblock
  set below := (old.copyright :: old.license.toList).map (· ++ e.tail) ++
    [Text.ofString CommentStyle.blockClose ++ e.tail] with hbelow
  have hlines : old.lines.map (· ++ e.tail) =
      (Text.ofString CommentStyle.blockOpen ++ e.tail) :: below := by
    rw [Header.lines_eq, hopen, hclose, hbelow]
    simp
  rw [hlines, entriesOf_cons, List.cons_append, s.survivors_cons (by simp), if_neg (by simp),
    s.removedBlock?_old hd hlicense hk hp hblock]
  have := s.survivors_removing (s.entriesOf h below) es (by simp [hbelow])
  simpa [entriesOf, hbelow] using this

lemma survivors_old_line (hb : old.copyright.isBlank = false) (hp : old.IsPlain)
    (hline : old.style ≠ .block) (es : List Entry) :
    s.survivors .copying (s.entriesOf h (old.lines.map (· ++ e.tail)) ++ es) =
      s.survivors .removed es := by
  rw [Header.lines_eq, Header.opening, Header.closing, if_neg hline, if_neg hline,
    List.nil_append, List.append_nil]
  refine s.survivors_lines (by simp) (by simp) (fun l hl => ?_) es
  refine ⟨?_, ?_, s.removes_texts hd hlicense hk l hl⟩ <;>
    obtain ⟨x, hx, rfl⟩ := List.mem_map.mp hl
  · rw [closerOf?_append_tail]
    exact hp.opens x hx
  · rcases List.mem_cons.mp hx with rfl | hx
    · simp [hb]
    · simp [hd.license x (hlicense ▸ Option.mem_toList.mp hx)]

/-- **A header with another notice goes as a whole.** -/
lemma survivors_old (hb : old.copyright.isBlank = false) (hp : old.IsPlain) (es : List Entry) :
    s.survivors .copying (s.entriesOf h (old.lines.map (· ++ e.tail)) ++ es) =
      s.survivors .removed es := by
  by_cases hblock : old.style = .block
  · exact s.survivors_old_block hd hlicense hk hp hblock es
  · exact s.survivors_old_line hd hlicense hk hb hp hblock es

end Old

/-! ### What a second run sees -/

/-- The window shows the empty line below the header. -/
def ShowsSeparator (height : Nat) : Prop :=
  s.detection.maxScanLines = 0 ∨ height < s.detection.maxScanLines

instance (height : Nat) : Decidable (s.ShowsSeparator height) :=
  inferInstanceAs (Decidable (_ ∨ _))

lemma windowSize_all_iff (height : Nat) :
    (s.windowSize height).all (height < ·) = true ↔ s.ShowsSeparator height := by
  unfold windowSize ShowsSeparator
  split
  · next h => simp [h]
  · next h =>
    simp only [Option.all_some, decide_eq_true_eq]
    omega

lemma firstOf_roomFor_append (ls rest : List Text) :
    firstOf (s.roomFor ls.length 0) (ls ++ rest) =
      ls ++ firstOf (s.roomFor ls.length ls.length) rest := by
  unfold roomFor windowSize
  split
  · rfl
  · simp only [Option.map_some, firstOf]
    rw [List.take_append, List.take_of_length_le (by omega), Nat.sub_zero]

lemma firstOf_prefix_self (n : Option Nat) (ls : List Text) : firstOf n ls <+: ls := by
  cases n with
  | none => exact List.prefix_rfl
  | some n => exact List.take_prefix n ls

lemma firstOf_roomFor_prefix_zero (height seen : Nat) (ls : List Text) :
    firstOf (s.roomFor height seen) ls <+: firstOf (s.roomFor height 0) ls := by
  unfold roomFor
  cases s.windowSize height with
  | none => exact List.prefix_rfl
  | some size => exact List.take_prefix_take_left (Nat.sub_le_sub_left (Nat.zero_le seen) size)

lemma window_eq_of_length (sc : Scan) {ls w rest : List Text} (h : ls.drop sc.offset = w ++ rest)
    (hlen : sc.kinds.length = w.length) : sc.window ls = w ∧ ls.drop sc.limit = rest := by
  constructor
  · rw [Scan.window, h, hlen, List.take_left]
  · rw [Scan.limit, ← List.drop_drop, h, hlen, List.drop_left]

/-- A header that is to make room for another one: it differs in the notice only, which is out of
date. -/
structure IsOutdated (filename : String) (e : LineEnd) (h old : Header) : Prop where
  style : old.style = h.style
  license : old.license = h.license
  not_blank : old.copyright.isBlank = false
  plain : old.IsPlain
  stale : (s.lineKind h (old.copyright ++ e.tail)).isStale = true
  keepsOffset : Placement.KeepsOffset s filename (old.lines.map (· ++ e.tail))

section Second

variable {s} {ls : List Text} {ext filename : String} {sc : Scan}

lemma OnlyBody.isBody_firstOf (hb : s.OnlyBody ls ext filename sc) (seen : Nat) :
    s.IsBody (s.entriesOf sc.header
      (firstOf (s.roomFor sc.header.lines.length seen) (ls.drop sc.offset))) := by
  have hkinds := s.firstOf_prefix_windowKinds sc.header 0 0 (ls.drop sc.offset)
  rw [← (s.inspect_eq_ok_iff.mp hb.inspect).2.2] at hkinds
  have hlen := hkinds.length_le
  rw [List.length_map, ← s.length_window hb.inspect] at hlen
  have hwindow : firstOf (s.roomFor sc.header.lines.length seen) (ls.drop sc.offset) <+:
      sc.window ls :=
    (s.firstOf_roomFor_prefix_zero _ _ _).trans
      (List.prefix_of_prefix_length_le (firstOf_prefix_self _ _) (List.take_prefix _ _) hlen)
  obtain ⟨rest, hrest⟩ := hwindow
  have hbody := hb.body
  rw [show s.windowEntries sc ls = s.entriesOf sc.header (sc.window ls) from rfl, ← hrest,
    entriesOf_append] at hbody
  exact hbody.of_append

/-- What a second run finds below the offset. -/
def secondScan (s : Settings) (sc : Scan) (old : Header) (ls : List Text) (e : LineEnd) : Scan :=
  ⟨sc.header, sc.offset, s.windowKinds sc.header 0 0
    (old.lines.map (· ++ e.tail) ++ e.tail :: ls.drop sc.offset)⟩

variable (hb : s.OnlyBody ls ext filename sc) (ho : s.IsOutdated filename e sc.header old)

lemma length_withHeader (h : Header) (o : Nat) (ls : List Text) (e : LineEnd) :
    (withHeader h o ls e).length = h.lines.length + 1 + ls.length := by
  simp only [withHeader, List.length_append, List.length_map, List.length_singleton,
    List.length_take, List.length_drop]
  omega

include hb in
lemma take_withHeader : (withHeader old sc.offset ls e).take sc.offset = ls.take sc.offset := by
  rw [withHeader, List.append_assoc,
    List.take_left' (List.length_take_of_le (s.offset_le_of_inspect hb.inspect))]

include hb in
lemma drop_withHeader : (withHeader old sc.offset ls e).drop sc.offset =
    old.lines.map (· ++ e.tail) ++ e.tail :: ls.drop sc.offset := by
  rw [withHeader, List.append_assoc,
    List.drop_left' (List.length_take_of_le (s.offset_le_of_inspect hb.inspect))]
  simp

include hb ho in
lemma inspect_withHeader : s.inspect (withHeader old sc.offset ls e) ext filename =
    .ok (secondScan s sc old ls e) := by
  have heq : withHeader old sc.offset ls e = ls.take sc.offset ++
      (old.lines.map (· ++ e.tail) ++ e.tail :: ls.drop sc.offset) := by
    rw [← drop_withHeader hb, ← take_withHeader hb, List.take_append_drop]
  rw [heq]
  refine s.inspect_take_append hb.inspect ?_
  have hkeeps := ho.keepsOffset
  obtain ⟨l, ks, hl⟩ := List.exists_cons_of_ne_nil old.lines_ne_nil
  rw [hl] at hkeeps ⊢
  exact hkeeps

include ho in
lemma length_lines_old : old.lines.length = sc.header.lines.length := by
  rw [Header.lines_eq, Header.lines_eq, Header.opening, Header.opening, Header.closing,
    Header.closing, ho.style, ho.license]
  simp

/-- The lines that a second run sees, if no notice of others makes its window grow. -/
def secondWindow (s : Settings) (sc : Scan) (old : Header) (ls : List Text) (e : LineEnd) :
    List Text :=
  old.lines.map (· ++ e.tail) ++
    if s.ShowsSeparator sc.header.lines.length then
      e.tail :: firstOf (s.roomFor sc.header.lines.length (sc.header.lines.length + 1))
        (ls.drop sc.offset)
    else []

include ho in
lemma firstOf_eq_secondWindow :
    firstOf (s.roomFor sc.header.lines.length 0)
      (old.lines.map (· ++ e.tail) ++ e.tail :: ls.drop sc.offset) =
    secondWindow s sc old ls e := by
  have hlen : (old.lines.map (· ++ e.tail)).length = sc.header.lines.length := by
    rw [List.length_map, length_lines_old ho]
  rw [secondWindow, ← hlen, s.firstOf_roomFor_append, firstOf_roomFor_cons]
  simp only [windowSize_all_iff]

include ho in
lemma kinds_secondScan (hn : s.thirdParty.action = .below →
      ∀ l ∈ secondWindow s sc old ls e, s.lineKind sc.header l ≠ .thirdParty) :
    (secondScan s sc old ls e).kinds =
      (secondWindow s sc old ls e).map (s.lineKind sc.header) := by
  rw [← firstOf_eq_secondWindow ho] at hn ⊢
  exact s.windowKinds_eq_firstOf hn

include ho in
lemma not_isBlank_old (hd : sc.header.IsDistinct) : ∀ l ∈ old.lines, l.isBlank = false := by
  refine Header.forall_mem_lines ?_ (by decide) (by decide)
  simp only [List.mem_cons, Option.mem_toList]
  rintro l (rfl | hl)
  · exact ho.not_blank
  · exact hd.license l (ho.license ▸ hl)

include hb ho in
lemma separator_second (hd : sc.header.IsDistinct) :
    separator (secondScan s sc old ls e) (withHeader old sc.offset ls e) e = [e.tail] := by
  obtain ⟨l, ks, hl⟩ := List.exists_cons_of_ne_nil old.lines_ne_nil
  have hget : (withHeader old sc.offset ls e)[sc.offset]? = some (l ++ e.tail) := by
    rw [← List.head?_drop, drop_withHeader hb, hl]
    rfl
  rw [separator, show (secondScan s sc old ls e).offset = sc.offset from rfl, hget]
  simp [not_isBlank_old ho hd l (by simp [hl])]

include hb ho in
lemma survivors_secondWindow (hd : sc.header.IsDistinct)
    (hn : s.thirdParty.action = .below →
      ∀ l ∈ secondWindow s sc old ls e, s.lineKind sc.header l ≠ .thirdParty)
    {w rest : List Text} (hw : secondWindow s sc old ls e = old.lines.map (· ++ e.tail) ++ w)
    (hrest : e.tail :: ls.drop sc.offset = w ++ rest) :
    s.survivors .copying (((withHeader old sc.offset ls e).drop sc.offset).zip
        (secondScan s sc old ls e).kinds) ++
      (withHeader old sc.offset ls e).drop (secondScan s sc old ls e).limit =
        s.survivors .removed (s.entriesOf sc.header w) ++ rest := by
  have hdrop : (withHeader old sc.offset ls e).drop sc.offset =
      secondWindow s sc old ls e ++ rest := by
    rw [drop_withHeader hb, hw, List.append_assoc, ← hrest]
  have hlen := congrArg List.length (kinds_secondScan ho hn)
  rw [List.length_map] at hlen
  obtain ⟨hwindow, hbelow⟩ := window_eq_of_length (secondScan s sc old ls e) hdrop hlen
  have hzip := s.zip_kinds (inspect_withHeader hb ho)
  rw [hwindow] at hzip
  have hold := s.survivors_old hd ho.license ho.stale ho.not_blank ho.plain
    (s.entriesOf sc.header w)
  rw [← entriesOf_append, ← hw] at hold
  rw [hbelow]
  exact congrArg (· ++ rest) ((congrArg (s.survivors .copying) hzip).trans hold)

include hb ho in
lemma survivors_second (hd : sc.header.IsDistinct)
    (hn : s.thirdParty.action = .below →
      ∀ l ∈ secondWindow s sc old ls e, s.lineKind sc.header l ≠ .thirdParty) :
    s.survivors .copying (((withHeader old sc.offset ls e).drop sc.offset).zip
        (secondScan s sc old ls e).kinds) ++
      (withHeader old sc.offset ls e).drop (secondScan s sc old ls e).limit =
        (if s.ShowsSeparator sc.header.lines.length then [] else [e.tail]) ++
          ls.drop sc.offset := by
  by_cases hshow : s.ShowsSeparator sc.header.lines.length
  · set seen := firstOf (s.roomFor sc.header.lines.length (sc.header.lines.length + 1))
      (ls.drop sc.offset) with hseen
    obtain ⟨rest, hrest⟩ : seen <+: ls.drop sc.offset := firstOf_prefix_self _ _
    have hbody : s.survivors .copying (s.entriesOf sc.header seen) =
        (s.entriesOf sc.header seen).map Prod.fst :=
      survivors_of_isBody (hb.isBody_firstOf (sc.header.lines.length + 1))
    have hw : secondWindow s sc old ls e = old.lines.map (· ++ e.tail) ++ (e.tail :: seen) := by
      rw [secondWindow, if_pos hshow]
    rw [survivors_secondWindow hb ho hd hn hw (by rw [List.cons_append, hrest]), if_pos hshow,
      entriesOf_cons, s.survivors_cons (by simp), if_pos (by simp), hbody, map_fst_entriesOf,
      hrest, List.nil_append]
  · have hw : secondWindow s sc old ls e = old.lines.map (· ++ e.tail) ++ [] := by
      rw [secondWindow, if_neg hshow]
    rw [survivors_secondWindow hb ho hd hn hw rfl, if_neg hshow]
    rfl

include hb ho in
/-- **A second run takes the old header away and puts the new one in its place.** -/
lemma rebuild_second (hd : sc.header.IsDistinct) (hn : s.thirdParty.action = .below →
      ∀ l ∈ secondWindow s sc old ls e, s.lineKind sc.header l ≠ .thirdParty) :
    s.rebuild (secondScan s sc old ls e) (withHeader old sc.offset ls e) e =
      ls.take sc.offset ++
        s.inserted (secondScan s sc old ls e) (withHeader old sc.offset ls e) e ++ [e.tail] ++
        (if s.ShowsSeparator sc.header.lines.length then [] else [e.tail]) ++
        ls.drop sc.offset := by
  rw [rebuild, show (secondScan s sc old ls e).offset = sc.offset from rfl, take_withHeader hb,
    separator_second hb ho hd, List.append_assoc _ _ (List.drop _ _), survivors_second hb ho hd hn]
  simp only [List.append_assoc]

/-! ### What a second run leaves -/

lemma notices_eq_nil_iff (hi : s.inspect ls ext filename = .ok sc) :
    sc.notices ls = [] ↔ .thirdParty ∉ sc.kinds := by
  rw [s.notices_eq_filter hi, s.kinds_eq_map_window hi, List.filter_eq_nil_iff]
  simp

lemma length_inserted (sc : Scan) (ls : List Text) (e : LineEnd) :
    (s.inserted sc ls e).length = sc.header.lines.length +
      if s.thirdParty.action = .above ∨ s.thirdParty.action = .below then (sc.notices ls).length
      else 0 := by
  rw [inserted]
  cases s.thirdParty.action <;> simp [Nat.add_comm]

lemma inserted_eq_headerLines
    (h : s.thirdParty.action = .above ∨ s.thirdParty.action = .below → sc.notices ls = []) :
    s.inserted sc ls e = headerLines sc e := by
  rw [inserted, headerLines]
  cases ha : s.thirdParty.action <;> simp [ha] at h ⊢ <;> exact h

/-- None of the lines that came in with an old header is moved next to the new one, as a notice of
others is. -/
def LeavesNotices (s : Settings) (h old : Header) (e : LineEnd) : Prop :=
  s.thirdParty.action = .above ∨ s.thirdParty.action = .below →
    ∀ l ∈ (old.lines ++ [[]]).map (· ++ e.tail), s.lineKind h l ≠ .thirdParty

lemma isThirdParty_of_lineKind (s : Settings) {h : Header} {l : Text}
    (hk : s.lineKind h l = .thirdParty) : s.isThirdParty l = true := by
  by_contra hno
  rw [lineKind, if_neg hno] at hk
  repeat' split at hk
  all_goals exact absurd hk (by decide)

include ho in
lemma lineKind_old_ne (hr : Header.render s ext = .ok sc.header) (hd : sc.header.IsDistinct) :
    ∀ l ∈ old.lines, s.lineKind sc.header (l ++ e.tail) ≠ .copyright := by
  have hopening : old.opening = sc.header.opening := by
    rw [Header.opening, Header.opening, ho.style]
  have hclosing : old.closing = sc.header.closing := by
    rw [Header.closing, Header.closing, ho.style]
  intro l hl
  rw [Header.lines_eq, hopening, hclosing, ho.license] at hl
  simp only [List.mem_append, List.mem_cons, Option.mem_toList] at hl
  rcases hl with hl | (rfl | hl) | hl
  · exact s.lineKind_marker_ne hr e (List.mem_append_left _ hl)
  · intro hk
    have hstale := ho.stale
    rw [hk] at hstale
    exact absurd hstale (by decide)
  · rw [s.lineKind_license hd hl]
    decide
  · exact s.lineKind_marker_ne hr e (List.mem_append_right _ hl)

include hb ho in
lemma withHeader_ne (hr : Header.render s ext = .ok sc.header) (hd : sc.header.IsDistinct) :
    withHeader old sc.offset ls e ≠ withHeader sc.header sc.offset ls e := by
  intro heq
  have hdrop := congrArg (List.drop sc.offset) heq
  rw [drop_withHeader hb, drop_withHeader hb] at hdrop
  have hlines := (List.append_inj hdrop (by simp [length_lines_old ho])).1
  have hmem : sc.header.copyright ++ e.tail ∈ old.lines.map (· ++ e.tail) := by
    rw [hlines]
    exact List.mem_map_of_mem Header.copyright_mem_lines
  obtain ⟨l, hl, hl'⟩ := List.mem_map.mp hmem
  exact lineKind_old_ne ho hr hd l hl (hl' ▸ s.lineKind_copyright hd e)

include hb in
lemma lineKind_secondWindow {l : Text} (hl : l ∈ secondWindow s sc old ls e) :
    l ∈ (old.lines ++ [[]]).map (· ++ e.tail) ∨ s.lineKind sc.header l = .content := by
  rw [secondWindow, List.mem_append] at hl
  rw [List.map_append, List.mem_append]
  rcases hl with hl | hl
  · exact .inl (.inl hl)
  · split at hl
    · rcases List.mem_cons.mp hl with rfl | hl
      · exact .inl (.inr (by simp))
      · exact .inr ((hb.isBody_firstOf _).content _ (List.mem_map_of_mem hl))
    · simp at hl

include hb in
lemma lineKind_secondWindow_ne (hl : LeavesNotices s sc.header old e)
    (ha : s.thirdParty.action = .above ∨ s.thirdParty.action = .below) :
    ∀ l ∈ secondWindow s sc old ls e, s.lineKind sc.header l ≠ .thirdParty := by
  intro l hmem
  rcases lineKind_secondWindow hb hmem with h | h
  · exact hl ha l h
  · rw [h]
    decide

include hb ho in
lemma notices_of_rebuild_eq (hr : Header.render s ext = .ok sc.header) (hd : sc.header.IsDistinct)
    (heq : s.rebuild (secondScan s sc old ls e) (withHeader old sc.offset ls e) e =
      withHeader sc.header sc.offset ls e) :
    s.noticesAbove (secondScan s sc old ls e) (withHeader old sc.offset ls e) = [] := by
  have hi : s.inspect _ ext filename = .ok (secondScan s sc old ls e) := inspect_withHeader hb ho
  obtain ⟨rest, hre⟩ := s.rebuild_eq_header (secondScan s sc old ls e)
    (withHeader old sc.offset ls e) e
  have hdrop := congrArg (List.drop sc.offset) (hre.symm.trans heq)
  rw [show (secondScan s sc old ls e).offset = sc.offset from rfl, take_withHeader hb,
    List.drop_left' (List.length_take_of_le (s.offset_le_of_inspect hb.inspect)),
    drop_withHeader hb] at hdrop
  -- the first copyright line stands at one place
  set c := sc.header.copyright ++ e.tail with hc
  have hkind : s.lineKind sc.header c = .copyright := s.lineKind_copyright hd e
  have hlines : ∀ x, sc.header.lines.map (· ++ e.tail) ++ x =
      sc.header.opening.map (· ++ e.tail) ++
        c :: ((sc.header.license.toList ++ sc.header.closing).map (· ++ e.tail) ++ x) := fun x => by
    rw [Header.lines_eq]
    simp [hc]
  have hopening : c ∉ sc.header.opening.map (· ++ e.tail) := fun hm => by
    obtain ⟨l, hl, hl'⟩ := List.mem_map.mp hm
    exact s.lineKind_marker_ne hr e (List.mem_append_left _ hl) (hl' ▸ hkind)
  have hnotices :
      c ∉ s.noticesAbove (secondScan s sc old ls e) (withHeader old sc.offset ls e) := by
    rcases s.noticesAbove_kind hi with h | ⟨-, h⟩
    · simp [h]
    · intro hm
      have hthird : s.lineKind sc.header c = .thirdParty := h c hm
      rw [hkind] at hthird
      exact absurd hthird (by decide)
  rw [show headerLines (secondScan s sc old ls e) e = sc.header.lines.map (· ++ e.tail) from rfl,
    hlines, hlines] at hdrop
  have hidx := congrArg (List.idxOf c) hdrop
  rw [List.idxOf_append_of_notMem hnotices, List.idxOf_append_of_notMem hopening,
    List.idxOf_append_of_notMem hopening, List.idxOf_cons_self, List.idxOf_cons_self] at hidx
  exact List.length_eq_zero_iff.mp (by omega)

include hb ho in
lemma lineKind_of_noticesAbove_eq_nil
    (habove : s.noticesAbove (secondScan s sc old ls e) (withHeader old sc.offset ls e) = [])
    (hbelow : s.thirdParty.action = .below) :
    ∀ l ∈ secondWindow s sc old ls e, s.lineKind sc.header l ≠ .thirdParty := by
  intro l hl hk
  rw [noticesAbove, if_pos hbelow, notices_eq_nil_iff (inspect_withHeader hb ho)] at habove
  refine habove ?_
  rw [← firstOf_eq_secondWindow ho] at hl
  exact (s.firstOf_prefix_windowKinds sc.header 0 0 _).subset (List.mem_map.mpr ⟨l, hl, hk⟩)

include hb ho in
lemma showsSeparator_of_rebuild_eq (hd : sc.header.IsDistinct)
    (hn : s.thirdParty.action = .below →
      ∀ l ∈ secondWindow s sc old ls e, s.lineKind sc.header l ≠ .thirdParty)
    (heq : s.rebuild (secondScan s sc old ls e) (withHeader old sc.offset ls e) e =
      withHeader sc.header sc.offset ls e) :
    s.ShowsSeparator sc.header.lines.length ∧
      (s.thirdParty.action = .above ∨ s.thirdParty.action = .below →
        (secondScan s sc old ls e).notices (withHeader old sc.offset ls e) = []) := by
  rw [rebuild_second hb ho hd hn] at heq
  have hlen := congrArg List.length heq
  have hle := s.offset_le_of_inspect hb.inspect
  rw [length_withHeader] at hlen
  simp only [List.length_append, length_inserted, List.length_singleton, List.length_take,
    List.length_drop] at hlen
  rw [show (secondScan s sc old ls e).header = sc.header from rfl] at hlen
  have hshow : s.ShowsSeparator sc.header.lines.length := by
    by_contra hno
    rw [if_neg hno, List.length_singleton] at hlen
    omega
  refine ⟨hshow, fun ha => ?_⟩
  rw [if_pos ha, if_pos hshow, List.length_nil] at hlen
  exact List.length_eq_zero_iff.mp (by omega)

include hb ho in
/-- **A second run leaves what a first one would have left**, just if its window shows the empty
line below the old header, and no line that came in with that is moved next to the new one. -/
lemma rebuild_second_eq_iff (hr : Header.render s ext = .ok sc.header)
    (hd : sc.header.IsDistinct) :
    s.rebuild (secondScan s sc old ls e) (withHeader old sc.offset ls e) e =
        withHeader sc.header sc.offset ls e ↔
      s.ShowsSeparator sc.header.lines.length ∧ LeavesNotices s sc.header old e := by
  have hi : s.inspect _ ext filename = .ok (secondScan s sc old ls e) := inspect_withHeader hb ho
  constructor
  · intro heq
    have hn := lineKind_of_noticesAbove_eq_nil hb ho (notices_of_rebuild_eq hb ho hr hd heq)
    obtain ⟨hshow, hnil⟩ := showsSeparator_of_rebuild_eq hb ho hd hn heq
    refine ⟨hshow, fun ha l hl hk => ?_⟩
    refine (notices_eq_nil_iff hi).mp (hnil ha) ?_
    rw [kinds_secondScan ho hn, ← hk]
    refine List.mem_map_of_mem ?_
    rw [List.map_append, List.mem_append] at hl
    rw [secondWindow, if_pos hshow]
    rcases hl with hl | hl
    · exact List.mem_append_left _ hl
    · obtain rfl : e.tail = l := by simpa [eq_comm] using hl
      exact List.mem_append_right _ List.mem_cons_self
  · rintro ⟨hshow, hleaves⟩
    have hn : s.thirdParty.action = .below →
        ∀ l ∈ secondWindow s sc old ls e, s.lineKind sc.header l ≠ .thirdParty := fun hbelow =>
      lineKind_secondWindow_ne hb hleaves (.inr hbelow)
    have hinserted : s.inserted (secondScan s sc old ls e) (withHeader old sc.offset ls e) e =
        headerLines (secondScan s sc old ls e) e := by
      refine inserted_eq_headerLines fun ha => ?_
      rw [notices_eq_nil_iff hi, kinds_secondScan ho hn]
      simpa using lineKind_secondWindow_ne hb hleaves ha
    rw [rebuild_second hb ho hd hn, hinserted, if_pos hshow, withHeader, headerLines]
    simp [secondScan]

end Second

/-! ### Texts -/

section Bump

variable {s} {t : Text} {ext filename : String} {sc : Scan}

lemma withHeader_not_mem {header : Header} (hu : ∀ l ∈ header.lines, Lines.IsUnended l) (o : Nat) :
    ∀ l ∈ withHeader header o (Lines.ofText t).all (Lines.ofText t).lineEnd,
      CodePoint.ofChar '\n' ∉ l := by
  intro l hl
  simp only [withHeader, List.mem_append, List.mem_map] at hl
  rcases hl with (hl | ⟨x, hx | hx, rfl⟩) | hl
  · exact Lines.not_mem_of_mem_ofText (List.mem_of_mem_take hl)
  · simp [(hu x hx).not_mem, Lines.not_mem_tail]
  · obtain rfl : x = [] := by simpa using hx
    simp [Lines.not_mem_tail]
  · exact Lines.not_mem_of_mem_ofText (List.mem_of_mem_drop hl)

lemma withHeader_ne_nil (h : Header) (o : Nat) (ls : List Text) (e : LineEnd) :
    withHeader h o ls e ≠ [] := by
  simp [withHeader]

variable {old : Header} (hb : s.OnlyBody (Lines.ofText t).all ext filename sc)
  (ho : s.IsOutdated filename (Lines.ofText t).lineEnd sc.header old)
  (hu : ∀ l ∈ old.lines, Lines.IsUnended l) (hd : sc.header.IsDistinct)

include hb ho hu hd in
lemma normalForm_second :
    s.normalForm (Lines.join (withHeader old sc.offset (Lines.ofText t).all
        (Lines.ofText t).lineEnd) (Lines.ofText t).ended) ext filename =
      .ok (Lines.join
        (if s.isGenerated (withHeader old sc.offset (Lines.ofText t).all (Lines.ofText t).lineEnd) ∨
            (secondScan s sc old (Lines.ofText t).all (Lines.ofText t).lineEnd).isCorrect
          then withHeader old sc.offset (Lines.ofText t).all (Lines.ofText t).lineEnd
          else s.rebuild (secondScan s sc old (Lines.ofText t).all (Lines.ofText t).lineEnd)
            (withHeader old sc.offset (Lines.ofText t).all (Lines.ofText t).lineEnd)
            (Lines.ofText t).lineEnd)
        (Lines.ofText t).ended) := by
  have hread := ofText_withHeader hb hu
  set ls := (Lines.ofText t).all
  set e := (Lines.ofText t).lineEnd
  set ended := (Lines.ofText t).ended
  have hi : s.inspect (withHeader old sc.offset ls e) ext filename =
      .ok (secondScan s sc old ls e) :=
    inspect_withHeader hb ho
  split
  · next h =>
    rcases h with hg | hc
    · exact s.normalForm_of_generated (by rwa [hread])
    · exact s.normalForm_of_correct (by rwa [hread]) hc
  · next h =>
    rw [not_or, Bool.not_eq_true, Bool.not_eq_true] at h
    have hd' : (secondScan s sc old ls e).header.IsDistinct := hd
    rw [s.normalForm_of_incorrect (by rw [hread]; exact h.1) (by rw [hread]; exact hi) hd' h.2,
      hread]

include hb ho hd in
lemma isCorrect_secondScan (hr : Header.render s ext = .ok sc.header)
    (hleaves : LeavesNotices s sc.header old (Lines.ofText t).lineEnd) :
    (secondScan s sc old (Lines.ofText t).all (Lines.ofText t).lineEnd).isCorrect = false := by
  rw [← Bool.not_eq_true, Scan.isCorrect_iff, kinds_secondScan ho
    fun hbelow => lineKind_secondWindow_ne hb hleaves (.inr hbelow)]
  rintro ⟨hc, -⟩
  obtain ⟨l, hl, hk⟩ := List.mem_map.mp hc
  rcases lineKind_secondWindow hb hl with h | h
  · obtain ⟨x, hx, rfl⟩ := List.mem_map.mp h
    rcases List.mem_append.mp hx with hx | hx
    · exact lineKind_old_ne ho hr hd x hx hk
    · obtain rfl : x = [] := by simpa using hx
      rw [lineKind_eq_copyright_iff] at hk
      simp at hk
  · rw [h] at hk
    exact absurd hk (by decide)

include hb ho hu in
lemma rebuild_secondScan_not_mem (hu' : ∀ l ∈ sc.header.lines, Lines.IsUnended l) :
    ∀ l ∈ s.rebuild (secondScan s sc old (Lines.ofText t).all (Lines.ofText t).lineEnd)
        (withHeader old sc.offset (Lines.ofText t).all (Lines.ofText t).lineEnd)
        (Lines.ofText t).lineEnd,
      CodePoint.ofChar '\n' ∉ l :=
  s.rebuild_not_mem (inspect_withHeader hb ho) (withHeader_not_mem hu _)
    fun l hl => (hu' l hl).not_mem

end Bump

/-- **Yearly updates leave no trace**, just if the window shows the empty line below the header, no
line that comes in with a header is moved as a notice of others, and the header does not make the
file one that counts as generated. -/
theorem normalForm_bumped_iff {t : Text} {ext filename : String} {first current : Int}
    {sc old : Scan} (hg : s.isGenerated (Lines.ofText t).all = false)
    (hb : s.OnlyBody (Lines.ofText t).all ext filename sc)
    (hold : (s.withYears first current).OnlyBody (Lines.ofText t).all ext filename old)
    (hd : sc.header.IsDistinct) (hd' : old.header.IsDistinct)
    (hu : ∀ h ∈ [sc.header, old.header], ∀ l ∈ h.copyright :: h.license.toList,
      Lines.IsUnended l)
    (hplain : old.header.IsPlain)
    (hk : (s.lineKind sc.header (old.header.copyright ++ (Lines.ofText t).lineEnd.tail)).isStale =
      true)
    (hp : Placement.KeepsOffset s filename
      (old.header.lines.map (· ++ (Lines.ofText t).lineEnd.tail))) :
    (do s.normalForm (← (s.withYears first current).normalForm t ext filename) ext filename) =
        s.normalForm t ext filename ↔
      s.isGenerated (withHeader old.header sc.offset (Lines.ofText t).all
          (Lines.ofText t).lineEnd) = false ∧
        s.ShowsSeparator sc.header.lines.length ∧
        LeavesNotices s sc.header old.header (Lines.ofText t).lineEnd := by
  obtain ⟨hr, ho, -⟩ := s.inspect_eq_ok_iff.mp hb.inspect
  obtain ⟨hr', ho', -⟩ := (inspect_eq_ok_iff _).mp hold.inspect
  have hoffset : old.offset = sc.offset := ho'.trans ho.symm
  have houtdated : s.IsOutdated filename (Lines.ofText t).lineEnd sc.header old.header := by
    obtain ⟨hs, -, hl⟩ := Header.render_eq_ok_iff.mp hr
    obtain ⟨hs', -, hl'⟩ := Header.render_eq_ok_iff.mp hr'
    refine ⟨hs'.trans hs.symm, ?_, hd'.copyright, hplain, hk, hp⟩
    exact Except.ok.inj (hl'.symm.trans hl)
  have hunended : ∀ h ∈ [sc.header, old.header], ∀ l ∈ h.lines, Lines.IsUnended l := fun h hh =>
    Header.forall_mem_lines (hu h hh) ⟨by decide, by decide⟩ ⟨by decide, by decide⟩
  have hu₁ := hunended sc.header (by simp)
  have hu₂ := hunended old.header (by simp)
  rw [normalForm_of_onlyBody (s := s.withYears first current) hg hold hd', hoffset,
    normalForm_of_onlyBody hg hb hd]
  show s.normalForm _ ext filename = _ ↔ _
  rw [normalForm_second hb houtdated hu₂ hd, Except.ok.injEq]
  set ls := (Lines.ofText t).all
  set e := (Lines.ofText t).lineEnd
  have hnew := rebuild_second_eq_iff hb houtdated hr hd
  have hne := withHeader_ne hb houtdated hr hd
  have hnil : s.rebuild (secondScan s sc old.header ls e) (withHeader old.header sc.offset ls e) e ≠
      [] := by
    obtain ⟨rest, hre⟩ := s.rebuild_eq_header (secondScan s sc old.header ls e)
      (withHeader old.header sc.offset ls e) e
    simp [hre, headerLines_ne_nil]
  have hjoin : ∀ ls', ls' ≠ [] → (∀ l ∈ ls', CodePoint.ofChar '\n' ∉ l) →
      (Lines.join ls' (Lines.ofText t).ended =
        Lines.join (withHeader sc.header sc.offset ls e) (Lines.ofText t).ended ↔
      ls' = withHeader sc.header sc.offset ls e) := fun ls' hne' hmem =>
    ⟨Lines.join_inj hne' (withHeader_ne_nil _ _ _ _) hmem (withHeader_not_mem hu₁ _), fun h => by
      rw [h]⟩
  split
  · next h =>
    rw [hjoin _ (withHeader_ne_nil _ _ _ _) (withHeader_not_mem hu₂ _)]
    refine iff_of_false hne fun ⟨hgen, _, hleaves⟩ => ?_
    rw [hgen, isCorrect_secondScan hb houtdated hd hr hleaves] at h
    simp at h
  · next h =>
    rw [not_or, Bool.not_eq_true] at h
    rw [hjoin _ hnil (rebuild_secondScan_not_mem hb houtdated hu₂ hu₁), hnew]
    exact (and_iff_right h.1).symm

/-! ### A window of four lines, and one of three -/

/-- Settings for headers of three lines, which are looked for in so many lines. -/
def yearly (maxScanLines : Nat) : Settings :=
  { Settings.default 2025 with
    copyright := { Copyright.default 2025 with holder := "ACME" }
    files := { Files.default with commentStyles := [("java", "/**")] }
    detection := { Detection.default with maxScanLines }
    thirdParty := ⟨.below, []⟩ }

def javaText : Text := "class A;\r\n"

lemma ofText_javaText : Lines.ofText javaText = ⟨["class A;\r"], .crlf, true⟩ := by cbv

def javaScan (year : String) : Scan :=
  ⟨⟨.block, " * Copyright ACME " ++ year, none⟩, 0, [.content]⟩

lemma onlyBody_java {s : Settings} {year : String}
    (hr : Header.render s ".java" = .ok (javaScan year).header)
    (ho : 0 = Placement.offset s ["class A;\r"] "A.java")
    (hk : [.content] = s.windowKinds (javaScan year).header 0 0 ["class A;\r"]) :
    s.OnlyBody (Lines.ofText javaText).all ".java" "A.java" (javaScan year) := by
  have hi : s.inspect ["class A;\r"] ".java" "A.java" = .ok (javaScan year) :=
    s.inspect_eq_ok_iff.mpr ⟨hr, ho, hk⟩
  have hkind : [.content] = [s.lineKind (javaScan year).header "class A;\r"] :=
    s.kinds_eq_map_window hi
  rw [ofText_javaText]
  refine ⟨hi, isBody_of_closerOf? ?_ ?_, "class A;\r", rfl, by decide⟩
  · rintro e he
    obtain rfl := List.mem_singleton.mp he
    exact (List.head_eq_of_cons_eq hkind).symm
  · rintro e he
    obtain rfl := List.mem_singleton.mp he
    exact show CommentStyle.closerOf? (Text.ofString "class A;\r") = none by decide

/-- What was written the year before, with its header. -/
def javaBumped : Text := "/**\r\n * Copyright ACME 2024\r\n */\r\n\r\nclass A;\r\n"

/-- What is found there. -/
def javaBumpedScan : Scan :=
  { (javaScan "2025") with kinds := [.content, .ownStale, .content] }

theorem yearly_four_bumped :
    (do (yearly 4).normalForm
          (← ((yearly 4).withYears 2024 2024).normalForm javaText ".java" "A.java")
          ".java" "A.java") =
      (yearly 4).normalForm javaText ".java" "A.java" := by
  have hnew : (yearly 4).OnlyBody (Lines.ofText javaText).all ".java" "A.java" (javaScan "2025") :=
    onlyBody_java (by cbv) (by decide) (by decide)
  have hold : ((yearly 4).withYears 2024 2024).OnlyBody (Lines.ofText javaText).all ".java"
      "A.java" (javaScan "2024") :=
    onlyBody_java (by cbv) (by decide) (by decide)
  refine (normalForm_bumped_iff (yearly 4) rfl hnew hold ⟨by decide, by decide, by decide⟩
    ⟨by decide, by decide, by decide⟩ (by decide) ⟨by decide, by decide, by decide⟩ ?_
    (by decide)).mpr ⟨rfl, by decide, ?_⟩ <;> rw [ofText_javaText]
  · cbv
  · intro _ l _ hk
    exact absurd (isThirdParty_of_lineKind _ hk) (by simp [isThirdParty, yearly, Pattern.anyOccurs])

/-- **Not every yearly update leaves no trace**: the empty line below the window stays, and another
one comes in. -/
theorem yearly_three_grows :
    (yearly 3).isGenerated (Lines.ofText javaText).all = false ∧
    (yearly 3).OnlyBody (Lines.ofText javaText).all ".java" "A.java" (javaScan "2025") ∧
    ((yearly 3).withYears 2024 2024).OnlyBody (Lines.ofText javaText).all ".java" "A.java"
      (javaScan "2024") ∧
    (yearly 3).lineKind (javaScan "2025").header " * Copyright ACME 2024\r" = .ownStale ∧
    (do (yearly 3).normalForm
          (← ((yearly 3).withYears 2024 2024).normalForm javaText ".java" "A.java")
          ".java" "A.java") =
      .ok "/**\r\n * Copyright ACME 2025\r\n */\r\n\r\n\r\nclass A;\r\n" ∧
    (yearly 3).normalForm javaText ".java" "A.java" =
      .ok "/**\r\n * Copyright ACME 2025\r\n */\r\n\r\nclass A;\r\n" := by
  have hnew : (yearly 3).OnlyBody (Lines.ofText javaText).all ".java" "A.java" (javaScan "2025") :=
    onlyBody_java (by cbv) (by decide) (by decide)
  have hold : ((yearly 3).withYears 2024 2024).OnlyBody (Lines.ofText javaText).all ".java"
      "A.java" (javaScan "2024") :=
    onlyBody_java (by cbv) (by decide) (by decide)
  have hfirst : ((yearly 3).withYears 2024 2024).normalForm javaText ".java" "A.java" =
      .ok javaBumped := by
    rw [normalForm_of_onlyBody rfl hold ⟨by decide, by decide, by decide⟩, ofText_javaText]
    rfl
  have hstale : (yearly 3).lineKind (javaScan "2025").header " * Copyright ACME 2024\r" =
      .ownStale := by
    cbv
  have hsecond : (yearly 3).inspect (Lines.ofText javaBumped).all ".java" "A.java" =
      .ok javaBumpedScan := by
    obtain ⟨hr, -⟩ := (yearly 3).inspect_eq_ok_iff.mp hnew.inspect
    refine (yearly 3).inspect_eq_ok_iff.mpr ⟨hr, by decide, ?_⟩
    have hread : (Lines.ofText javaBumped).all = (["/**\r", " * Copyright ACME 2024\r", " */\r",
      "\r", "class A;\r"] : List Text) := by decide
    rw [hread, show javaBumpedScan.header = (javaScan "2025").header from rfl,
      show javaBumpedScan.offset = 0 from rfl, List.drop_zero, windowKinds_cons, windowKinds_cons,
      hstale]
    decide
  refine ⟨rfl, hnew, hold, hstale, ?_, ?_⟩
  · rw [hfirst]
    show (yearly 3).normalForm _ ".java" "A.java" = _
    rw [(yearly 3).normalForm_of_incorrect (by decide) hsecond ⟨by decide, by decide, by decide⟩
      (by decide)]
    rfl
  · rw [normalForm_of_onlyBody rfl hnew ⟨by decide, by decide, by decide⟩, ofText_javaText]
    rfl

end Settings

end Letterhead
