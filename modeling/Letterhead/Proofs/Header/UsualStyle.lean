import Letterhead.Proofs.Header.Render

/-!
Headers where no comment style is configured: each line starts with the mark of the style that is
usual for the extension, and with such a mark no line starts below which a header would be placed.
-/

namespace Letterhead

namespace CommentStyle

/-- The extensions whose comments are written with a hash. -/
def hashExtensions : List String := [".sh", ".py", ".hcl", ".tf", ".yml", ".yaml"]

/-- What a line of a header starts with where no style is configured. -/
inductive UsualStart (ext : String) : Text → Prop where
  | hash (u : Text) : ext ∈ hashExtensions →
      UsualStart ext (CodePoint.ofChar '#' :: CodePoint.ofChar ' ' :: u)
  | html (u : Text) : UsualStart ext (CodePoint.ofChar '<' :: CodePoint.ofChar '!' :: u)
  | slash (u : Text) : UsualStart ext (CodePoint.ofChar '/' :: u)

lemma usualStart_wrap (ext : String) (t v : Text) :
    UsualStart ext ((usual ext).wrap ext t ++ v) := by
  unfold usual
  split
  · next hext => exact .hash _ (List.contains_iff_mem.mp hext)
  · split
    · exact .html _
    · exact .slash _

lemma UsualStart.trimLeft_eq {ext : String} {l : Text} (h : UsualStart ext l) :
    l.trimLeft = l := by
  cases h <;> exact List.dropWhile_cons_of_neg (by decide)

lemma UsualStart.goesAbove {ext : String} {l : Text} (h : UsualStart ext l) (s : Settings) :
    Placement.goesAbove s ("dummy" ++ ext) l = false := by
  have hprefix : l.trim <+: l := by
    have := l.trim_prefix_trimLeft
    rwa [h.trimLeft_eq] at this
  have hshebang : Placement.isShebang l = false := by cases h <;> rfl
  have hxml : Placement.isXmlDeclaration l = false := by
    rw [Placement.isXmlDeclaration, h.trimLeft_eq]
    cases h <;> rfl
  have hfence : Placement.isFence l = false := by
    rw [Placement.isFence, beq_eq_false_iff_ne]
    intro heq
    rw [heq] at hprefix
    cases h <;> exact absurd (List.cons_prefix_cons.mp hprefix).1 (by decide)
  have hheading : (Placement.isMarkdown ("dummy" ++ ext) && Placement.isHeading l) = false := by
    rw [Bool.and_eq_false_iff, or_iff_not_imp_right, Bool.not_eq_false, Placement.isHeading,
      Text.startsWith, List.isPrefixOf_iff_prefix]
    intro hp
    have hp := hp.trans hprefix
    cases h with
    | hash u hext =>
      have hall : ∀ e ∈ hashExtensions, Placement.isMarkdown ("dummy" ++ e) = false := by decide
      exact hall ext hext
    | html u => exact absurd (List.cons_prefix_cons.mp hp).1 (by decide)
    | slash u => exact absurd (List.cons_prefix_cons.mp hp).1 (by decide)
  rw [Placement.goesAbove, hshebang, hxml, hfence, Bool.and_false, Bool.and_false, Bool.and_assoc,
    hheading, Bool.and_false]
  rfl

lemma UsualStart.isBlank_eq {ext : String} {l : Text} (h : UsualStart ext l) :
    l.isBlank = false := by
  cases h <;> rfl

end CommentStyle

variable {s : Settings} {ext : String} {h : Header}

lemma CommentStyle.ofExtension_of_usual (hs : s.files.commentStyles = []) (ext : String) :
    CommentStyle.ofExtension s ext = usual ext := by
  rw [ofExtension, Settings.commentMarker?, hs]
  rfl

lemma CommentStyle.enclose_usual (ext : String) (ls : List Text) :
    (usual ext).enclose ls = ls := by
  unfold usual
  split
  · rfl
  · split <;> rfl

namespace Header

lemma lines_of_usual (hs : s.files.commentStyles = []) (hr : render s ext = .ok h) :
    h.lines = h.copyright :: h.license.toList := by
  rw [lines, (render_eq_ok_iff.mp hr).1, CommentStyle.ofExtension_of_usual hs,
    CommentStyle.enclose_usual]

lemma usualStart_copyright (hs : s.files.commentStyles = []) (hr : render s ext = .ok h)
    (v : Text) : CommentStyle.UsualStart ext (h.copyright ++ v) := by
  obtain ⟨t, -, hc⟩ := s.copyrightLine_eq_ok_iff.mp (render_eq_ok_iff.mp hr).2.1
  rw [hc, Settings.wrap, CommentStyle.ofExtension_of_usual hs]
  exact CommentStyle.usualStart_wrap ext t v

lemma copyright_of_hash (hs : s.files.commentStyles = []) (hr : render s ext = .ok h)
    (hext : ext ∈ CommentStyle.hashExtensions) :
    ∃ u, h.copyright = CodePoint.ofChar '#' :: CodePoint.ofChar ' ' :: u := by
  obtain ⟨t, -, hc⟩ := s.copyrightLine_eq_ok_iff.mp (render_eq_ok_iff.mp hr).2.1
  have husual : CommentStyle.usual ext = .line "#" := if_pos (List.contains_iff_mem.mpr hext)
  rw [hc, Settings.wrap, CommentStyle.ofExtension_of_usual hs, husual]
  exact ⟨_, rfl⟩

lemma usualStart_license (hs : s.files.commentStyles = []) (hr : render s ext = .ok h) {l : Text}
    (hl : l ∈ h.license) (v : Text) : CommentStyle.UsualStart ext (l ++ v) := by
  have hline := (render_eq_ok_iff.mp hr).2.2
  rw [Option.mem_def.mp hl, Settings.licenseLine] at hline
  split at hline
  · cases ht : s.licenseText with
    | error err => simp [ht, bind, Except.bind] at hline
    | ok t =>
      obtain rfl : s.wrap ext t = l := by
        simpa [ht, bind, Except.bind, pure, Except.pure] using hline
      rw [Settings.wrap, CommentStyle.ofExtension_of_usual hs]
      exact CommentStyle.usualStart_wrap ext t v
  · cases hline

lemma isDistinct_of_usual (hs : s.files.commentStyles = []) (hr : render s ext = .ok h)
    (hdiffer : ∀ l ∈ h.license, l.trim ≠ h.copyright.trim) : h.IsDistinct where
  copyright := by
    have := usualStart_copyright hs hr []
    rw [List.append_nil] at this
    exact this.isBlank_eq
  license l hl := by
    have := usualStart_license hs hr hl []
    rw [List.append_nil] at this
    exact this.isBlank_eq
  differ := hdiffer

end Header

end Letterhead
