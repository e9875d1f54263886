import Letterhead.Run.Fix
import Letterhead.Proofs.ContentType.Mark
import Letterhead.Proofs.Header.Halt
import Letterhead.Proofs.Header.UsualStyle
import Letterhead.Proofs.Header.Stability
import Letterhead.Proofs.Text.Utf8

/-!
What one fix does to a file: how the file is read, what becomes of it, and what is written.

The rebuilt text is made of lines that were read and of a header of scalar values, so it can be
written and is read again as it was written. Where a file counts as one whose comments start with a
hash, its header looks like a heading.
-/

namespace Letterhead

open Utf8 ContentType

/-! ### Reading and fixing -/

namespace Settings

variable {s : Settings} {obstacles : Obstacles} {t t' : Tree} {path : String} {bs bs' : Bytes}
  {src : Source} {f : FileFix}

lemma eq_of_source? (h : s.source? path bs = some src) (hsmart : src.smart = true) :
    (s.effectiveExtension path).2 = true ∧ isBinary bs = false ∧ src.extension ≠ "" ∧
      ofText s.files (decodeLossy bs) path = src.extension ∧
      src =
        ⟨path, bs, Lines.ofText (decode bs), src.extension, "dummy" ++ src.extension, true⟩ := by
  unfold source? at h
  dsimp only at h
  split at h
  · next hs =>
    unfold classify at h
    split at h
    · next found hfound =>
      split at hfound
      · cases hfound
      · next hbinary =>
        split at h
        · cases h
        · next hne =>
          obtain rfl := Option.some.inj h
          exact ⟨hs, by simpa using hbinary, hne, Option.some.inj hfound, rfl⟩
    · cases h
  · obtain rfl := Option.some.inj h
    cases hsmart

lemma source?_of_classify (h : s.source? path bs = some src) (hsmart : src.smart = true)
    (hclass : classify s.files bs' path = classify s.files bs path) :
    s.source? path bs' = some { src with bytes := bs', lines := Lines.ofText (decode bs') } := by
  obtain ⟨hs, hbinary, hne, hext, hsrc⟩ := eq_of_source? h hsmart
  have hfound : classify s.files bs' path = some src.extension := by
    rw [hclass, classify, hbinary, ← hext]
    rfl
  unfold source?
  dsimp only
  rw [if_pos hs, hfound]
  dsimp only
  rw [if_neg hne, hsrc]
  rfl

lemma fixFile_of_source (hread : t.read path = .ok bs) (hsrc : s.source? path bs = some src) :
    s.fixFile obstacles t path = s.fixSource obstacles t src := by
  rw [fixFile, hread]
  dsimp only
  rw [hsrc]

lemma normalizeSource_eq_ok_iff {src : Source} {n : Normalized} :
    s.normalizeSource src = .ok n ↔ s.halt? src.lines.all src.extension src.name = none ∧
      s.normalize src.lines.all src.extension src.name src.lines.lineEnd = .ok n :=
  unlessHalted_eq_ok_iff

lemma normalize_of_fixFile (hread : t.read path = .ok bs) (hsrc : s.source? path bs = some src)
    (h : s.fixFile obstacles t path = (.ok f, t')) (hissue : f.issue = none) :
    ∃ n, s.normalizeSource src = .ok n ∧
      s.normalize src.lines.all src.extension src.name src.lines.lineEnd = .ok n ∧
      f = ⟨src.path, n.outcome, none⟩ ∧
      (n.outcome.changes = false ∧ t' = t ∨ n.outcome.changes = true ∧
        ∃ bs', src.render n.lines = some bs' ∧
          t.replaceFile src.path bs' (obstacles.hinders src.path) = (.ok (), t')) := by
  rw [fixFile_of_source hread hsrc] at h
  unfold fixSource at h
  dsimp only at h
  split at h
  · cases h
  · split at h
    · obtain ⟨hf, -⟩ := Prod.mk.inj h
      obtain rfl := Except.ok.inj hf
      cases hissue
    · cases h
  · next n hn =>
    refine ⟨n, hn, (normalizeSource_eq_ok_iff.mp hn).2, ?_⟩
    cases hch : n.outcome.changes with
    | false =>
      rw [hch] at h
      obtain ⟨hf, rfl⟩ := Prod.mk.inj h
      exact ⟨(Except.ok.inj hf).symm, .inl ⟨rfl, rfl⟩⟩
    | true =>
      rw [if_neg (by simp [hch])] at h
      split at h
      · cases h
      · next bs' hbs =>
        split at h
        · next t₂ hreplace =>
          obtain ⟨hf, rfl⟩ := Prod.mk.inj h
          exact ⟨(Except.ok.inj hf).symm, .inr ⟨rfl, bs', hbs, hreplace⟩⟩
        · obtain ⟨hf, -⟩ := Prod.mk.inj h
          obtain rfl := Except.ok.inj hf
          cases hissue

lemma bytes_of_not_changes (hread : t.read path = .ok bs) (hsrc : s.source? path bs = some src)
    (h : s.fixFile obstacles t path = (.ok f, t')) (hissue : f.issue = none)
    (hread' : t'.read path = .ok bs') (hch : f.outcome.changes = false) : bs' = bs := by
  obtain ⟨n, -, -, rfl, ⟨-, rfl⟩ | ⟨hyes, -⟩⟩ := normalize_of_fixFile hread hsrc h hissue
  · exact Except.ok.inj (hread'.symm.trans hread)
  · cases hch.symm.trans hyes

lemma fixFile_of_unchanged (hread : t.read path = .ok bs) (hsrc : s.source? path bs = some src)
    {n : Normalized} (hn : s.normalizeSource src = .ok n) (hch : n.outcome.changes = false) :
    s.fixFile obstacles t path = (.ok ⟨src.path, n.outcome, none⟩, t) := by
  rw [fixFile_of_source hread hsrc]
  unfold fixSource
  dsimp only
  rw [hn]
  dsimp only
  rw [hch]
  rfl

/-! ### The bytes that a fix writes -/

section Written

variable {ls : List Text} {ext filename : String} {e : LineEnd} {sc : Scan}

/-- Where no style is configured, what comes in keeps its place if the notices above the header
do. -/
lemma keepsOffset_inserted (hs : s.files.commentStyles = [])
    (hi : s.inspect ls ext filename = .ok sc)
    (hbelow : Placement.KeepsOffset s ("dummy" ++ ext) (s.noticesAbove sc ls)) :
    Placement.KeepsOffset s ("dummy" ++ ext) (s.inserted sc ls e) := by
  have hr := (s.inspect_eq_ok_iff.mp hi).1
  obtain ⟨ts, hts⟩ := s.inserted_eq sc ls e
  rw [hts]
  intro l hl
  rcases hnotices : s.noticesAbove sc ls with _ | ⟨x, xs⟩
  · rw [hnotices, headerLines, Header.lines_of_usual hs hr] at hl
    obtain rfl : sc.header.copyright ++ e.tail = l := by simpa using hl
    exact (Header.usualStart_copyright hs hr e.tail).goesAbove s
  · rw [hnotices] at hl hbelow
    exact hbelow l hl

/-- The header is text that a file can hold: its characters are scalar values and no zeros. -/
def IsWritable (h : Header) : Prop :=
  ∀ l ∈ h.copyright :: h.license.toList, ∀ c ∈ l, c.IsScalar ∧ c ≠ ⟨0⟩

instance (h : Header) : Decidable (IsWritable h) :=
  inferInstanceAs
    (Decidable (∀ l ∈ h.copyright :: h.license.toList, ∀ c ∈ l, c.IsScalar ∧ c ≠ ⟨0⟩))

lemma mem_headerLines_of_usual (hs : s.files.commentStyles = [])
    (hi : s.inspect ls ext filename = .ok sc) (hw : IsWritable sc.header) {l : Text}
    (hl : l ∈ headerLines sc e) : ∀ c ∈ l, c.IsScalar ∧ c ≠ ⟨0⟩ := by
  obtain ⟨x, hx, rfl⟩ := List.mem_map.mp hl
  rw [Header.lines_of_usual hs (s.inspect_eq_ok_iff.mp hi).1] at hx
  intro c hc
  rcases List.mem_append.mp hc with hc | hc
  · exact hw x hx c hc
  · have htail : ∀ c ∈ e.tail, c = CodePoint.ofChar '\r' := by
      cases e <;> simp [LineEnd.tail, Text.ofChars]
    rw [htail c hc]
    exact ⟨CodePoint.isScalar_ofChar _, by decide⟩

lemma isScalar_of_isWritable {h : Header} (hw : IsWritable h) :
    ∀ l ∈ h.lines, ∀ c ∈ l, c.IsScalar :=
  Header.forall_mem_lines (fun l hl c hc => (hw l hl c hc).1) (by decide) (by decide)

lemma decode_of_render_rebuild (hi : s.inspect (Lines.ofText (decode bs)).all ext filename = .ok sc)
    (hscalar : ∀ l ∈ sc.header.lines, ∀ c ∈ l, c.IsScalar) {ended : Bool}
    (h : encode (Lines.join (s.rebuild sc (Lines.ofText (decode bs)).all e) ended) = some bs') :
    decode bs' = Lines.join (s.rebuild sc (Lines.ofText (decode bs)).all e) ended := by
  have hne := s.rebuild_ne_nil sc (Lines.ofText (decode bs)).all e
  have hlines : ∀ l ∈ (Lines.ofText (decode bs)).all, IsRead l := by
    refine (isRead_join (Text.cutAt_ne_nil _ _) (Lines.ofText (decode bs)).ended).mp ⟨bs, ?_⟩
    exact (Lines.toText_ofText (decode bs)).symm
  have htail : ∀ c ∈ e.tail, c.IsScalar := by
    cases e <;> simp [LineEnd.tail, Text.ofChars, CodePoint.isScalar_ofChar]
  have hread : IsRead (Lines.join (s.rebuild sc (Lines.ofText (decode bs)).all e) ended) := by
    refine (isRead_join hne ended).mpr fun l hl => ?_
    rcases s.mem_rebuild hi hl with hl | hl | rfl
    · exact hlines l hl
    · obtain ⟨x, hx, rfl⟩ := List.mem_map.mp hl
      exact isRead_of_isScalar (List.forall_mem_append.mpr ⟨hscalar x hx, htail⟩)
    · exact isRead_of_isScalar htail
  obtain ⟨b, hb, hdecode⟩ := hread.encode
  rw [h, Option.some.injEq] at hb
  rw [hb, hdecode]

lemma zero_not_mem_rebuild (hs : s.files.commentStyles = [])
    (hi : s.inspect (Lines.ofText (decode bs)).all ext filename = .ok sc)
    (hw : IsWritable sc.header) (htext : 0 ∉ bs) {ended : Bool}
    (h : decode bs' = Lines.join (s.rebuild sc (Lines.ofText (decode bs)).all e) ended) :
    0 ∉ bs' := by
  have hzero : (⟨0⟩ : CodePoint) ≠ CodePoint.ofChar '\n' := by decide
  rw [← zero_mem_decode, h, Lines.mem_join hzero]
  rintro ⟨l, hl, hc⟩
  rcases s.mem_rebuild hi hl with hl | hl | rfl
  · refine htext (zero_mem_decode.mp ?_)
    rw [← Lines.toText_ofText (decode bs)]
    exact (Lines.mem_join hzero _).mpr ⟨l, hl, hc⟩
  · exact (mem_headerLines_of_usual hs hi hw hl _ hc).2 rfl
  · cases e
    · cases hc
    · exact absurd hc (by decide)

lemma anyHeading_of_rebuild (hs : s.files.commentStyles = [])
    (hi : s.inspect ls ext filename = .ok sc) (hext : ext ∈ CommentStyle.hashExtensions)
    {ended : Bool} (h : decode bs' = Lines.join (s.rebuild sc ls e) ended) :
    anyLineStart isHeading (decodeLossy bs') = true := by
  have hr := (s.inspect_eq_ok_iff.mp hi).1
  obtain ⟨u, hu⟩ := Header.copyright_of_hash hs hr hext
  have hheading : ∀ {r : Bytes} {v : Text}, decode r = sc.header.copyright ++ e.tail ++ v →
      isHeading (decodeLossy r) = true := by
    intro r v hr
    rw [hu] at hr
    obtain ⟨r₁, -, hr, hlossy⟩ := exists_of_decode_eq_cons hr (by decide)
    obtain ⟨r₂, -, -, hlossy'⟩ := exists_of_decode_eq_cons hr (by decide)
    rw [hlossy, hlossy']
    rfl
  -- the copyright line is the first one of what comes in
  obtain ⟨rest, hre⟩ := s.rebuild_eq_header sc ls e
  have hline : s.rebuild sc ls e = (ls.take sc.offset ++ s.noticesAbove sc ls) ++
      (sc.header.copyright ++ e.tail) :: (sc.header.license.toList.map (· ++ e.tail) ++ rest) := by
    rw [hre, headerLines, Header.lines_of_usual hs hr]
    simp
  obtain ⟨v, hv | ⟨w, hv⟩⟩ := Lines.join_eq_append (ls.take sc.offset ++ s.noticesAbove sc ls)
    (sc.header.copyright ++ e.tail) (sc.header.license.toList.map (· ++ e.tail) ++ rest) ended
  · rw [hline, hv] at h
    rw [anyLineStart, hheading h]
    rfl
  · rw [hline, hv] at h
    obtain ⟨a, r, rfl, -, hr⟩ := exists_of_decode_eq_append h
    rw [decodeLossy_append_newline]
    exact anyLineStart_of_append isHeading _ (hheading hr)

end Written

end Settings

end Letterhead
