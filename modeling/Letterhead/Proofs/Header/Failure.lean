import Letterhead.Proofs.Header.Agreement
import Letterhead.Proofs.Header.Comment
import Letterhead.Proofs.Header.OtherYears
import Letterhead.Proofs.Source

/-!
Headers that cannot be rendered, and headers that cannot be written.

Both are the same for all files. The templates are expanded with the values of the settings, so a
fault in them is met in every file or in none. What the style of a file adds to the texts can always
be written, and so can every line that was read, so a rebuilt file has bytes just if the texts of
the header have.
-/

namespace Letterhead

namespace TemplateError

/-- The error is reported for the file, and does not end the run. -/
def IsReported (e : TemplateError) : Prop :=
  e.fault ≠ .unsupported ∧ e.fault ≠ .overflow ∧ e.fault ≠ .noMemory ∧ e.fault ≠ .longYear

lemma isReported_iff {e : TemplateError} : e.IsReported ↔ ∃ m, e.message? = some m := by
  obtain ⟨template, fault⟩ := e
  cases fault <;> simp [IsReported, message?, Template.Fault.report?]

lemma IsReported.of_message? {e : TemplateError} {m : String} (h : e.message? = some m) :
    e.IsReported := isReported_iff.mpr ⟨m, h⟩

lemma not_isReported_iff {e : TemplateError} : ¬ e.IsReported ↔ e.message? = none := by
  rw [isReported_iff, Option.eq_none_iff_forall_ne_some, not_exists]

end TemplateError

namespace Settings

variable {s : Settings} {ls : List Text} {ext filename : String} {e : LineEnd} {sc : Scan}
  {err : TemplateError}

/-! ### A header that cannot be rendered -/

/-- What keeps every header from being rendered, if something does. -/
def headerError? (s : Settings) : Option TemplateError :=
  match s.copyrightText, s.licenseText with
  | .error err, _ => some err
  | .ok _, .error err => if s.license.enabled then some err else none
  | .ok _, .ok _ => none

lemma render_of_headerError? (h : s.headerError? = some err) (ext : String) :
    Header.render s ext = .error err := by
  unfold headerError? at h
  unfold Header.render copyrightLine licenseLine
  cases hc : s.copyrightText with
  | error err' =>
    rw [hc] at h
    obtain rfl := Option.some.inj h
    rfl
  | ok c =>
    cases hl : s.licenseText with
    | error err' =>
      simp only [hc, hl] at h
      split at h
      · next hon =>
        obtain rfl := Option.some.inj h
        simp [hon, bind, Except.bind, pure, Except.pure]
      · cases h
    | ok l => simp [hc, hl] at h

lemma exists_render_of_headerError? (h : s.headerError? = none) (ext : String) :
    ∃ h, Header.render s ext = .ok h := by
  unfold headerError? at h
  unfold Header.render copyrightLine licenseLine
  cases hc : s.copyrightText with
  | error err => simp [hc] at h
  | ok c =>
    cases hl : s.licenseText with
    | error err =>
      have hoff : s.license.enabled = false := by simpa [hc, hl] using h
      simp [hoff, bind, Except.bind, pure, Except.pure]
    | ok l => cases s.license.enabled <;> simp [bind, Except.bind, pure, Except.pure]

lemma inspect_of_headerError? (h : s.headerError? = some err) (ls : List Text)
    (ext filename : String) : s.inspect ls ext filename = .error err :=
  s.inspect_of_error (render_of_headerError? h ext)

lemma exists_inspect_of_headerError? (h : s.headerError? = none) (ls : List Text)
    (ext filename : String) : ∃ sc, s.inspect ls ext filename = .ok sc := by
  obtain ⟨hd, hr⟩ := exists_render_of_headerError? h ext
  exact ⟨_, s.inspect_of_render hr⟩

lemma exists_normalize (h : s.headerError? = none) (ls : List Text) (ext filename : String)
    (e : LineEnd) : ∃ n, s.normalize ls ext filename e = .ok n := by
  obtain ⟨sc, hi⟩ := exists_inspect_of_headerError? h ls ext filename
  exact s.exists_normalize_of_inspect hi e

lemma headerError?_of_normalize (h : s.normalize ls ext filename e = .error err) :
    s.isGenerated ls = false ∧ s.headerError? = some err := by
  cases hg : s.isGenerated ls with
  | true => cases h.symm.trans (s.normalize_of_generated hg)
  | false =>
    cases he : s.headerError? with
    | none =>
      obtain ⟨n, hn⟩ := exists_normalize he ls ext filename e
      cases h.symm.trans hn
    | some err' =>
      cases h.symm.trans (s.normalize_of_error hg (inspect_of_headerError? he ls ext filename))
      exact ⟨rfl, rfl⟩

/-! ### A header that cannot be written -/

/-- The texts of the header have bytes. -/
def HeaderHasBytes (s : Settings) : Prop := ∀ t, s.IsHeaderText t → (Utf8.encode t).isSome = true

lemma wrap_mem_lines {h : Header} (hr : Header.render s ext = .ok h) {t : Text}
    (ht : s.IsHeaderText t) : s.wrap ext t ∈ h.lines := by
  obtain ⟨-, hcopyright, hlicense⟩ := Header.render_eq_ok_iff.mp hr
  rcases ht with ht | ⟨hon, ht⟩
  · obtain ⟨c, hc, hline⟩ := s.copyrightLine_eq_ok_iff.mp hcopyright
    obtain rfl := Except.ok.inj (ht.symm.trans hc)
    exact hline ▸ Header.copyright_mem_lines
  · have hline : h.license = some (s.wrap ext t) := by
      simpa [licenseLine, hon, ht, bind, Except.bind, pure, Except.pure, eq_comm] using hlicense
    exact Header.license_mem_lines hline

variable {path : String} {bs : Bytes} {src : Source}

lemma isSome_encodePoint_of_source? (hsrc : s.source? path bs = some src) {l : Text}
    (hl : l ∈ src.lines.all) : ∀ c ∈ l, (Utf8.encodePoint c).isSome = true := by
  intro c hc
  rw [lines_of_source? hsrc] at hl
  have hne : c ≠ CodePoint.ofChar '\n' := fun h => Lines.not_mem_of_mem_ofText hl (h ▸ hc)
  have hjoin := (Lines.mem_join hne (Lines.ofText (Utf8.decode bs)).ended).mpr ⟨l, hl, hc⟩
  have hmem : c ∈ Utf8.decode bs := Lines.toText_ofText (Utf8.decode bs) ▸ hjoin
  exact Utf8.isSome_encode_iff.mp (by rw [Utf8.encode_decode]; rfl) c hmem

lemma isSome_render_rebuild_iff (hsrc : s.source? path bs = some src)
    (hi : s.inspect src.lines.all ext filename = .ok sc) (e : LineEnd) :
    (src.render (s.rebuild sc src.lines.all e)).isSome = true ↔ s.HeaderHasBytes := by
  have hr := (s.inspect_eq_ok_iff.mp hi).1
  have htail : ∀ c ∈ e.tail, (Utf8.encodePoint c).isSome = true := by cases e <;> decide
  have hnewline : (Utf8.encodePoint (CodePoint.ofChar '\n')).isSome = true := by decide
  rw [Source.render, Utf8.isSome_encode_iff]
  constructor
  · intro hall t ht
    refine Utf8.isSome_encode_iff.mpr fun c hc => ?_
    by_cases hne : c = CodePoint.ofChar '\n'
    · exact hne ▸ hnewline
    refine hall c ((Lines.mem_join hne _).mpr ⟨s.wrap ext t ++ e.tail, ?_, ?_⟩)
    · obtain ⟨rest, hrest⟩ := s.rebuild_eq_header sc src.lines.all e
      have hline : s.wrap ext t ++ e.tail ∈ headerLines sc e :=
        List.mem_map_of_mem (wrap_mem_lines hr ht)
      simp [hrest, hline]
    · exact List.mem_append_left _ (CommentStyle.mem_wrap hc)
  · intro htexts
    have hheader : ∀ l ∈ sc.header.lines, ∀ c ∈ l, (Utf8.encodePoint c).isSome = true := by
      refine forall_mem_of_render (by decide) (fun m _ c hc => ?_)
        (fun t ht => Utf8.isSome_encode_iff.mp (htexts t ht)) hr
      obtain ⟨a, -, rfl⟩ := List.mem_map.mp hc
      exact Utf8.isSome_encodePoint_of_isScalar (CodePoint.isScalar_ofChar a)
    intro c hc
    by_cases hne : c = CodePoint.ofChar '\n'
    · exact hne ▸ hnewline
    obtain ⟨l, hl, hcl⟩ := (Lines.mem_join hne _).mp hc
    rcases s.mem_rebuild hi hl with hl | hl | rfl
    · exact isSome_encodePoint_of_source? hsrc hl c hcl
    · obtain ⟨x, hx, rfl⟩ := List.mem_map.mp hl
      exact (List.mem_append.mp hcl).elim (hheader x hx c) (htail c)
    · exact htail c hcl

lemma isSome_render_iff (hsrc : s.source? path bs = some src) {n : Normalized}
    (hn : s.normalize src.lines.all src.extension src.name src.lines.lineEnd = .ok n)
    (hch : n.outcome.changes = true) :
    (src.render n.lines).isSome = true ↔ s.HeaderHasBytes := by
  obtain ⟨sc, -, hi, -, hlines, -⟩ := s.normalize_changes hn hch
  rw [hlines]
  exact isSome_render_rebuild_iff hsrc hi _

end Settings

end Letterhead
