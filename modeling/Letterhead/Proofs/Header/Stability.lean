import Letterhead.Proofs.Text.LineEnd
import Letterhead.Proofs.Header.Rebuild

/-!
Bringing a file to its normal form is done once: a file that was rebuilt carries its header where
it is looked for, so it is left alone from then on.

The argument has one idea. What comes in at the offset starts with the header, below notices of
others where these belong above it; no line of it moves the offset; and a header that stands there
is found. The same idea shows that a file without its header is never its own rebuilt form.
-/

namespace Letterhead.Settings

variable (s : Settings) {ls : List Text} {ext filename : String} {e : LineEnd} {sc : Scan}

/-! ### The header is found again -/

/-- The first line that comes in is the first one of the notices and the header, whatever follows
these. -/
lemma keepsOffset_header (hp : Placement.KeepsOffset s filename (s.inserted sc ls e))
    (rest : List Text) :
    Placement.KeepsOffset s filename (s.noticesAbove sc ls ++ (headerLines sc e ++ rest)) := by
  obtain ⟨ts, hts⟩ := s.inserted_eq sc ls e
  obtain ⟨l, xs, hl⟩ : ∃ l xs, s.noticesAbove sc ls ++ headerLines sc e = l :: xs :=
    List.exists_cons_of_ne_nil (by simp [headerLines_ne_nil])
  rw [hts, hl] at hp
  rw [← List.append_assoc, hl]
  exact hp

lemma inspect_take_append (hi : s.inspect ls ext filename = .ok sc) {r : List Text}
    (hr : Placement.KeepsOffset s filename r) :
    s.inspect (ls.take sc.offset ++ r) ext filename =
      .ok ⟨sc.header, sc.offset, s.windowKinds sc.header 0 0 r⟩ := by
  obtain ⟨hh, ho, -⟩ := s.inspect_eq_ok_iff.mp hi
  have hlen := List.length_take_of_le (s.offset_le_of_inspect hi)
  refine s.inspect_eq_ok_iff.mpr ⟨hh, ?_, by rw [List.drop_left' hlen]⟩
  rw [ho, Placement.offset_take_append s ls filename hr]

lemma inspect_header (hi : s.inspect ls ext filename = .ok sc) (hd : sc.header.IsDistinct)
    (hp : Placement.KeepsOffset s filename (s.inserted sc ls e)) (rest : List Text) :
    ∃ sc', s.inspect
        (ls.take sc.offset ++ (s.noticesAbove sc ls ++ (headerLines sc e ++ rest)))
        ext filename = .ok sc' ∧ sc'.isCorrect = true :=
  ⟨_, s.inspect_take_append hi (s.keepsOffset_header hp rest),
    s.isCorrect_of_header hd e _ (s.noticesAbove_kind hi) rest⟩

/-- **A file without its header is not its own rebuilt form.** -/
theorem rebuild_ne (hi : s.inspect ls ext filename = .ok sc) (hd : sc.header.IsDistinct)
    (hc : sc.isCorrect = false) (e : LineEnd) : s.rebuild sc ls e ≠ ls := by
  intro heq
  obtain ⟨rest, hre⟩ := s.rebuild_eq_header sc ls e
  rw [heq] at hre
  obtain ⟨-, -, hk⟩ := s.inspect_eq_ok_iff.mp hi
  have hlen := List.length_take_of_le (s.offset_le_of_inspect hi)
  have hdrop : ls.drop sc.offset = s.noticesAbove sc ls ++ (headerLines sc e ++ rest) := by
    have := congrArg (List.drop sc.offset) hre
    rwa [List.drop_left' hlen] at this
  have hcorrect := s.isCorrect_of_header hd e sc.offset (s.noticesAbove_kind hi) rest
  rw [show sc.header.lines.map (· ++ e.tail) = headerLines sc e from rfl, ← hdrop, ← hk] at hcorrect
  exact Bool.false_ne_true (hc.symm.trans hcorrect)

lemma isCorrect_of_not_changes {n : Normalized} (hg : s.isGenerated ls = false)
    (hd : ∀ h, Header.render s ext = .ok h → h.IsDistinct)
    (hn : s.normalize ls ext filename e = .ok n) (hch : n.outcome.changes = false) :
    ∃ sc, s.inspect ls ext filename = .ok sc ∧ sc.isCorrect = true := by
  obtain ⟨hyes, -⟩ | ⟨-, sc, hi, ⟨hc, -⟩ | ⟨hc, rfl⟩⟩ := s.normalize_cases hn
  · cases hg.symm.trans hyes
  · exact ⟨sc, hi, hc⟩
  · have hne := s.rebuild_ne hi (hd _ (s.inspect_eq_ok_iff.mp hi).1) hc e
    simp only [if_neg hne] at hch
    split at hch <;> cases hch

/-! ### Normal forms of texts -/

/-- The normal form of a text, without what was found on the way. -/
def normalForm (t : Text) (ext filename : String) : Except TemplateError Text :=
  (s.normalizeText t ext filename).map (·.1)

lemma map_normalizeText {t : Text} {n : Normalized}
    (h : s.normalize (Lines.ofText t).all ext filename (Lines.ofText t).lineEnd = .ok n) :
    s.normalForm t ext filename =
      .ok (if n.outcome.changes then Lines.join n.lines (Lines.ofText t).ended else t) := by
  simp [normalForm, normalizeText, h, bind, Except.bind, pure, Except.pure, Except.map]

lemma normalForm_of_correct {t : Text}
    (hi : s.inspect (Lines.ofText t).all ext filename = .ok sc) (hc : sc.isCorrect = true) :
    s.normalForm t ext filename = .ok t := by
  cases hg : s.isGenerated (Lines.ofText t).all with
  | true => rw [s.map_normalizeText (s.normalize_of_generated hg)]; rfl
  | false => rw [s.map_normalizeText (s.normalize_of_correct hg hi hc)]; rfl

lemma normalForm_of_generated {t : Text} (hg : s.isGenerated (Lines.ofText t).all = true) :
    s.normalForm t ext filename = .ok t := by
  rw [s.map_normalizeText (s.normalize_of_generated hg)]
  rfl

lemma normalForm_of_incorrect {t : Text} (hg : s.isGenerated (Lines.ofText t).all = false)
    (hi : s.inspect (Lines.ofText t).all ext filename = .ok sc) (hd : sc.header.IsDistinct)
    (hc : sc.isCorrect = false) :
    s.normalForm t ext filename =
      .ok (Lines.join (s.rebuild sc (Lines.ofText t).all (Lines.ofText t).lineEnd)
        (Lines.ofText t).ended) := by
  have hn := s.map_normalizeText (s.normalize_of_incorrect hg hi hc)
  rw [if_neg (s.rebuild_ne hi hd hc _)] at hn
  have hchanges : Outcome.changes (if sc.hasMaterial then .fixed else .added) = true := by
    split <;> rfl
  rw [hn, if_pos hchanges]

lemma rebuild_not_mem (hi : s.inspect ls ext filename = .ok sc)
    (hls : ∀ l ∈ ls, CodePoint.ofChar '\n' ∉ l)
    (hs : ∀ l ∈ sc.header.lines, CodePoint.ofChar '\n' ∉ l) :
    ∀ l ∈ s.rebuild sc ls e, CodePoint.ofChar '\n' ∉ l := by
  intro l hl
  rcases s.mem_rebuild hi hl with h | h | rfl
  · exact hls l h
  · obtain ⟨x, hx, rfl⟩ := List.mem_map.mp h
    rw [List.mem_append, not_or]
    exact ⟨hs x hx, Lines.not_mem_tail e⟩
  · exact Lines.not_mem_tail e

/-- A rebuilt file is found correct when it is read again, even if an empty last line of it is
taken for the end of the line before. -/
lemma inspect_join_rebuild (hi : s.inspect ls ext filename = .ok sc)
    (hls : ∀ l ∈ ls, CodePoint.ofChar '\n' ∉ l) (hd : sc.header.IsDistinct)
    (hs : sc.header.IsSingleLine) (hp : Placement.KeepsOffset s filename (s.inserted sc ls e))
    (ended : Bool) :
    ∃ sc', s.inspect (Lines.ofText (Lines.join (s.rebuild sc ls e) ended)).all ext filename =
      .ok sc' ∧ sc'.isCorrect = true := by
  obtain ⟨rest, hre⟩ := s.rebuild_eq_header sc ls e
  have hmem := s.rebuild_not_mem (e := e) hi hls hs.not_mem_lines
  rcases Lines.all_ofText_join (s.rebuild_ne_nil sc ls e) hmem ended with
    hall | ⟨init, -, hinit, hall⟩
  · obtain ⟨sc', hi', hc'⟩ := s.inspect_header hi hd hp rest
    exact ⟨sc', by rw [hall, hre]; exact hi', hc'⟩
  · -- the empty line is no line of the header, so it lies behind the header
    have hrest : rest ≠ [] := by
      rintro rfl
      obtain ⟨front, l, hl⟩ : ∃ front l, headerLines sc e = front ++ [l] :=
        ⟨_, _, (List.dropLast_concat_getLast (headerLines_ne_nil sc e)).symm⟩
      rw [hre, hl, List.append_nil, ← List.append_assoc, ← List.append_assoc] at hinit
      obtain rfl : l = [] := by simpa using (List.append_inj' hinit rfl).2
      have hm : ([] : Text) ∈ headerLines sc e := by rw [hl]; simp
      obtain ⟨x, hx, hx'⟩ := List.mem_map.mp hm
      have := hd.not_isBlank x hx
      rw [(List.append_eq_nil_iff.mp hx').1] at this
      exact absurd this (by decide)
    obtain ⟨sc', hi', hc'⟩ := s.inspect_header hi hd hp rest.dropLast
    refine ⟨sc', ?_, hc'⟩
    rw [hall, show init = (s.rebuild sc ls e).dropLast by rw [hinit, List.dropLast_concat], hre,
      List.dropLast_append_of_ne_nil (by simp [headerLines_ne_nil]),
      List.dropLast_append_of_ne_nil (by simp [headerLines_ne_nil]),
      List.dropLast_append_of_ne_nil hrest]
    exact hi'

lemma normalForm_join_rebuild (hi : s.inspect ls ext filename = .ok sc)
    (hls : ∀ l ∈ ls, CodePoint.ofChar '\n' ∉ l) (hd : sc.header.IsDistinct)
    (hs : sc.header.IsSingleLine) (hp : Placement.KeepsOffset s filename (s.inserted sc ls e))
    (ended : Bool) :
    s.normalForm (Lines.join (s.rebuild sc ls e) ended) ext filename =
      .ok (Lines.join (s.rebuild sc ls e) ended) := by
  obtain ⟨sc', hi', hc'⟩ := s.inspect_join_rebuild hi hls hd hs hp ended
  exact s.normalForm_of_correct hi' hc'

/-- The text of the file. -/
def sampleText : Text := "<!-- Oracle -->\r\n<!-- Copyright ACME 2019 -->\r\ntext\r\n"

lemma ofText_sampleText : Lines.ofText sampleText = ⟨sampleLines, .crlf, true⟩ := by cbv

lemma isDistinct_sample : sampleScan.header.IsDistinct :=
  ⟨by decide, by decide, by decide⟩

lemma render_sample {h : Header} (hr : Header.render sample ".md" = .ok h) :
    h = sampleScan.header := by
  have hs := ((sample.inspect_eq_ok_iff).mp inspect_sample).1
  rw [hr] at hs
  simpa using hs

end Letterhead.Settings
