import Letterhead.Proofs.ContentType.HeaderLine
import Letterhead.Proofs.Run.Fate
import Letterhead.Proofs.Run.Fix
import Letterhead.Proofs.Tree.Replace

/-!
Fixing a file twice, when its content tells its extension.

The new content has the old lines and a header, so the type that it tells is the old one if no line
that comes or goes says anything about it. One case is left: the header of YAML looks like a heading
of Markdown, which counts as a mark of Markdown together with a key of a front matter. Where the
type stays, the second fix reads the file as it was written, finds the header and leaves the file.
-/

namespace Letterhead

open Utf8 ContentType

namespace Settings

variable {s : Settings} {obstacles : Obstacles} {t t' : Tree} {path : String} {bs bs' : Bytes}
  {src : Source} {f : FileFix}

/-- A fix without issue of a text that was not generated and whose content tells its extension, and
what is read then. -/
structure IsFirstFix (s : Settings) (obstacles : Obstacles) (t t' : Tree) (path : String)
    (bs bs' : Bytes) (src : Source) (f : FileFix) : Prop where
  read : t.read path = .ok bs
  text : 0 ∉ bs
  source : s.source? path bs = some src
  smart : src.smart = true
  written : s.isGenerated src.lines.all = false
  fix : s.fixFile obstacles t path = (.ok f, t')
  issue : f.issue = none
  readAgain : t'.read path = .ok bs'

/-- The header has the usual style, its lines differ, its texts say nothing, and there is no notice
above it that it would be placed below. -/
structure HasDiscreetHeader (s : Settings) (src : Source) : Prop where
  usual : s.files.commentStyles = []
  lines : ∀ h, Header.render s src.extension = .ok h → h.IsSingleLine ∧ IsWritable h ∧
    ∀ l ∈ h.license, l.trim ≠ h.copyright.trim
  discreet : ∀ h, Header.render s src.extension = .ok h → IsDiscreet s h
  below : ∀ sc, s.inspect src.lines.all src.extension src.name = .ok sc →
    Placement.KeepsOffset s src.name (s.noticesAbove sc src.lines.all)

/-- What was read and what is read then differ in lines of the header and in lines that say nothing;
and no part of an indicator goes on behind a line feed. -/
structure DiffersMutely (s : Settings) (src : Source) (bs bs' : Bytes) : Prop where
  inLine : ∀ i ∈ s.files.smartIndicators, ∀ part ∈ i.2.content, Text.IsInLine part
  closed : s.files.smartIndicators = [] →
    ∀ p ∈ Text.pieces (decodeLossy bs), opensClause p = false
  mute : ∀ h, Header.render s src.extension = .ok h →
    ∀ p ∈ Text.changedLines (decodeLossy bs) (decodeLossy bs'), p ∉ h.ownLines →
      IsMute s.files src.extension p

section Twice

variable (h : IsFirstFix s obstacles t t' path bs bs' src f) (hheader : HasDiscreetHeader s src)

include h

lemma bytes_of_firstFix (hch : f.outcome.changes = false) : bs' = bs :=
  bytes_of_not_changes h.read h.source h.fix h.issue h.readAgain hch

include hheader

lemma exists_rebuild_of_fixFile (hch : f.outcome.changes = true) :
    ∃ sc, s.inspect src.lines.all src.extension src.name = .ok sc ∧ sc.isCorrect = false ∧
      decode bs' = Lines.join (s.rebuild sc src.lines.all src.lines.lineEnd) src.lines.ended := by
  obtain ⟨-, -, -, -, hsource⟩ := eq_of_source? h.source h.smart
  obtain ⟨n, -, hn, rfl, hdone⟩ := normalize_of_fixFile h.read h.source h.fix h.issue
  rcases hdone with ⟨hno, -⟩ | ⟨-, written, hrender, hreplace⟩
  · rw [hno] at hch
    cases hch
  obtain ⟨sc, -, hi, hc, hlines, -⟩ := s.normalize_changes hn hch
  have hpath : src.path = path := by rw [hsource]
  rw [hpath] at hreplace
  obtain rfl := Tree.read_replaceFile h.read hreplace h.readAgain
  have hall : src.lines = Lines.ofText (decode bs) := by rw [hsource]
  refine ⟨sc, hi, hc, ?_⟩
  rw [Source.render, hlines] at hrender
  rw [hall] at hi hrender ⊢
  exact decode_of_render_rebuild hi
    (isScalar_of_isWritable (hheader.lines _ (s.inspect_eq_ok_iff.mp hi).1).2.1) hrender

/-- If the header is discreet, no line that comes in or goes says anything, unless one does that is
not of the header. -/
lemma isMute_of_mem_changedLines (hmute : DiffersMutely s src bs bs') :
    ∀ p ∈ Text.changedLines (decodeLossy bs) (decodeLossy bs'),
      IsMute s.files src.extension p := by
  intro p hp
  cases hch : f.outcome.changes with
  | false => simp [Text.changedLines, bytes_of_firstFix h hch] at hp
  | true =>
    obtain ⟨sc, hi, -, -⟩ := exists_rebuild_of_fixFile h hheader hch
    have hr := (s.inspect_eq_ok_iff.mp hi).1
    by_cases hown : p ∈ sc.header.ownLines
    · refine isMute_of_mem_ownLines hheader.usual hr (hheader.lines _ hr).1 (hheader.discreet _ hr)
        ?_ hown
      obtain ⟨-, -, -, hext, -⟩ := eq_of_source? h.source h.smart
      intro hnone hhash
      have hguess : src.extension = guess (decodeLossy bs) (baseName path) := by
        rw [← hext, ofText, hnone]
        rfl
      rw [hguess] at hhash ⊢
      exact eq_of_guess_mem_hashExtensions hhash
    · exact hmute.mute _ hr p hp hown

/-- The type is told as before, unless the header came in as a heading above a key of a front
matter. -/
lemma classify_eq_iff (hmute : DiffersMutely s src bs bs') :
    classify s.files bs' path = classify s.files bs path ↔
      ¬ (f.outcome.changes = true ∧ s.files.smartIndicators = [] ∧ src.extension = ".yaml" ∧
        anyLineStart isFrontMatterKey (decodeLossy bs) = true) := by
  obtain ⟨-, hbinary, -, hext, hsource⟩ := eq_of_source? h.source h.smart
  cases hch : f.outcome.changes with
  | false =>
    rw [bytes_of_firstFix h hch]
    simp
  | true =>
    obtain ⟨sc, hi, -, hdecode⟩ := exists_rebuild_of_fixFile h hheader hch
    have hall : src.lines = Lines.ofText (decode bs) := by rw [hsource]
    have hr := (s.inspect_eq_ok_iff.mp hi).1
    have hbinary' : isBinary bs' = false := by
      have hzero : 0 ∉ bs' :=
        zero_not_mem_rebuild hheader.usual (hall ▸ hi) (hheader.lines _ hr).2.1 h.text
          (hall ▸ hdecode)
      simpa [isBinary] using fun h => hzero (List.mem_of_mem_take h)
    have hheading : src.extension = ".yaml" → anyLineStart isHeading (decodeLossy bs') = true :=
      fun hyaml => anyHeading_of_rebuild hheader.usual hi (by rw [hyaml]; decide) hdecode
    have hchanged := isMute_of_mem_changedLines h hheader hmute
    rw [← hext] at hchanged
    rw [classify, classify, hbinary, hbinary']
    simp only [Bool.false_eq_true, if_false, Option.some.injEq]
    rw [ofText_eq_iff hmute.inLine hmute.closed hchanged, hext]
    simp only [true_and]
    refine not_congr ⟨?_, ?_⟩
    · rintro ⟨h₁, h₂, -, h₃⟩
      exact ⟨h₁, h₂, h₃⟩
    · rintro ⟨h₁, h₂, h₃⟩
      exact ⟨h₁, h₂, hheading h₂, h₃⟩

lemma isCorrect_of_fixFile :
    ∃ sc, s.inspect (Lines.ofText (decode bs')).all src.extension src.name = .ok sc ∧
      sc.isCorrect = true := by
  obtain ⟨-, -, -, -, hsource⟩ := eq_of_source? h.source h.smart
  have hname : src.name = "dummy" ++ src.extension := by rw [hsource]
  have hall : src.lines = Lines.ofText (decode bs) := by rw [hsource]
  obtain ⟨n, -, hn, rfl, -⟩ := normalize_of_fixFile h.read h.source h.fix h.issue
  have hdistinct : ∀ hd, Header.render s src.extension = .ok hd → hd.IsDistinct := fun hd hr =>
    Header.isDistinct_of_usual hheader.usual hr (hheader.lines hd hr).2.2
  cases hch : n.outcome.changes with
  | true =>
    obtain ⟨sc, hi, hc, hdecode⟩ := exists_rebuild_of_fixFile h hheader hch
    have hr := (s.inspect_eq_ok_iff.mp hi).1
    have hkeeps := keepsOffset_inserted hheader.usual (hname ▸ hi) (hname ▸ hheader.below sc hi)
      (e := src.lines.lineEnd)
    rw [hdecode]
    refine s.inspect_join_rebuild hi (fun l hl => ?_) (hdistinct _ hr) (hheader.lines _ hr).1
      (hname ▸ hkeeps) _
    rw [hall] at hl
    exact Lines.not_mem_of_mem_ofText hl
  | false =>
    rw [bytes_of_firstFix h hch, ← hall]
    exact s.isCorrect_of_not_changes h.written hdistinct hn hch

lemma normalize_of_firstFix (e : LineEnd) :
    ∃ found, s.normalize (Lines.ofText (decode bs')).all src.extension src.name e =
      .ok ⟨(Lines.ofText (decode bs')).all,
        if s.isGenerated (Lines.ofText (decode bs')).all then .skipped else .unchanged, found⟩ := by
  obtain ⟨sc, hi, hc⟩ := isCorrect_of_fixFile h hheader
  cases hgen : s.isGenerated (Lines.ofText (decode bs')).all with
  | true => exact ⟨none, s.normalize_of_generated hgen⟩
  | false => exact ⟨some sc, s.normalize_of_correct hgen hi hc⟩

lemma fixFile_of_classify (hclass : classify s.files bs' path = classify s.files bs path)
    (obstacles' : Obstacles) :
    s.fixFile obstacles' t' path =
      (match s.halt? (Lines.ofText (decode bs')).all src.extension src.name with
        | some e => .error (.stopped (.pattern e))
        | none => .ok ⟨path, if s.isGenerated (Lines.ofText (decode bs')).all then .skipped
            else .unchanged, none⟩, t') := by
  have hpath : src.path = path := by rw [(eq_of_source? h.source h.smart).2.2.2.2]
  obtain ⟨found, hn⟩ := normalize_of_firstFix h hheader (Lines.ofText (decode bs')).lineEnd
  rw [fixFile_of_source h.readAgain (source?_of_classify h.source h.smart hclass)]
  unfold fixSource normalizeSource
  dsimp only
  cases hhalt : s.halt? (Lines.ofText (decode bs')).all src.extension src.name with
  | some e => rw [unlessHalted_of_halt? hhalt]
  | none =>
    rw [unlessHalted_of_not_halt? hhalt, hn, Except.mapError]
    dsimp only
    rw [if_pos (by split <;> rfl), hpath]

end Twice

/-- **Fixing a file twice.** Where the texts of the header bear no mark, and no line that came in or
went with it does, the content tells the extension that it told before, but for one case: a file of
YAML with a key of a front matter, to which the header has come in as a heading, and no indicators.
Where the extension is the same, a second fix reports that nothing changed, or that the file counts
as generated, and leaves the tree as it is; unless a pattern ends it that the first fix did not
search for. -/
theorem fixFile_twice {s : Settings} {obstacles : Obstacles} {t t' : Tree} {path : String}
    {bs bs' : Bytes} {src : Source} {f : FileFix}
    (h : IsFirstFix s obstacles t t' path bs bs' src f) (hheader : HasDiscreetHeader s src)
    (hmute : DiffersMutely s src bs bs') :
    (classify s.files bs' path = classify s.files bs path ↔
      ¬ (f.outcome.changes = true ∧ s.files.smartIndicators = [] ∧ src.extension = ".yaml" ∧
        anyLineStart isFrontMatterKey (decodeLossy bs) = true)) ∧
    (classify s.files bs' path = classify s.files bs path → ∀ obstacles' : Obstacles,
      s.fixFile obstacles' t' path =
        (match s.halt? (Lines.ofText (decode bs')).all src.extension src.name with
          | some e => .error (.stopped (.pattern e))
          | none => .ok ⟨path, if s.isGenerated (Lines.ofText (decode bs')).all then .skipped
              else .unchanged, none⟩, t')) ∧
    ((∀ p ∈ s.linePatterns, Pattern.IsSafe s.host p) →
      s.halt? (Lines.ofText (decode bs')).all src.extension src.name = none) :=
  ⟨classify_eq_iff h hheader hmute, fixFile_of_classify h hheader,
    fun hsafe => halt?_eq_none hsafe _ _ _⟩

/-! ### A tree of one template -/

/-- Settings under which templates count under what they hold. -/
def templates : Settings :=
  { Settings.default 2025 with
    copyright := { Copyright.default 2025 with holder := "ACME" }
    files := { Files.default with smartExtensions := [".tmpl"] } }

lemma linePatterns_templates : ∀ p ∈ templates.linePatterns, Pattern.IsSafe templates.host p :=
  fun _ hp => absurd hp List.not_mem_nil

lemma eq_of_isHeaderText_templates {t : Text} (ht : templates.IsHeaderText t) :
    t = "Copyright ACME 2025" :=
  eq_of_isHeaderText (by cbv) rfl ht

def template (bs : Bytes) : Tree := .ofFolder [("a.tmpl", .file bs 0o644)]

lemma isAtTop_template : Tree.IsAtTop "a.tmpl" "a.tmpl" := by decide

lemma read_template (bs : Bytes) : (template bs).read "a.tmpl" = .ok bs :=
  isAtTop_template.read_of_file rfl rfl

/-- The template and the new file that is to take its place. -/
def templateBeside (bs data : Bytes) (mode : Nat) : Tree :=
  .ofFolder [("a.tmpl", .file bs 0o644), (".letterhead-0", .file data mode)]

lemma createBeside_template (bs : Bytes) : (template bs).createBeside "a.tmpl" =
    .ok ([".letterhead-0"], templateBeside bs [] Tree.newMode) := by
  have hfree : Tree.freeName (["a.tmpl"] ++ [] ++ Tree.steps "a.tmpl" ++ []) = ".letterhead-0" := by
    decide
  rw [Tree.createBeside, isAtTop_template.folderOf_eq rfl]
  exact congrArg
    (fun name => Except.ok ([name], (template bs).put [name] (.file [] Tree.newMode))) hfree

lemma copyMode_template (bs data : Bytes) :
    (templateBeside bs data Tree.newMode).copyMode "a.tmpl" [".letterhead-0"] data =
      .ok (templateBeside bs data 0o644) := by
  rw [Tree.copyMode, Tree.modeAt_of_file (isAtTop_template.locate_of_file rfl rfl true) rfl]
  rfl

lemma moveTo_template (bs data : Bytes) :
    (templateBeside bs data 0o644).moveTo [".letterhead-0"] "a.tmpl" = .ok (template data) := by
  rw [Tree.moveTo, if_neg (by decide), isAtTop_template.locate_of_file rfl rfl false]
  rfl

lemma replaceFile_template (bs data : Bytes) :
    (template bs).replaceFile "a.tmpl" data (fun _ => none) = (.ok (), template data) := by
  have hfilled :
      (templateBeside bs [] Tree.newMode).put [".letterhead-0"] (.file data Tree.newMode) =
        templateBeside bs data Tree.newMode := rfl
  simp only [Tree.replaceFile, Tree.attempt, createBeside_template, hfilled, bind, Except.bind,
    copyMode_template, moveTo_template]

/-- The template as it is read, if it counts under an extension. -/
def templateSource (bs : Bytes) (ext : String) : Source :=
  ⟨"a.tmpl", bs, Lines.ofText (decode bs), ext, "dummy" ++ ext, true⟩

lemma source?_template {ext : String} (hne : ext ≠ "")
    (h : classify templates.files bs "a.tmpl" = some ext) :
    templates.source? "a.tmpl" bs = some (templateSource bs ext) := by
  have hsmart : templates.effectiveExtension "a.tmpl" = (".tmpl", true) := by decide
  unfold source?
  rw [hsmart]
  dsimp only
  rw [if_pos rfl, h]
  dsimp only
  rw [if_neg hne]
  rfl

lemma fixFile_template {ext : String} (hne : ext ≠ "")
    (h : classify templates.files bs "a.tmpl" = some ext) {sc : Scan}
    (hgen : templates.isGenerated (Lines.ofText (decode bs)).all = false)
    (hi : templates.inspect (Lines.ofText (decode bs)).all ext ("dummy" ++ ext) = .ok sc)
    (hc : sc.isCorrect = false) {ls : List Text}
    (hrebuild : templates.rebuild sc (Lines.ofText (decode bs)).all
      (Lines.ofText (decode bs)).lineEnd = ls)
    (hchange : ls ≠ (Lines.ofText (decode bs)).all)
    (hrender : encode (Lines.join ls (Lines.ofText (decode bs)).ended) = some bs') :
    templates.fixFile unhindered (template bs) "a.tmpl" =
      (.ok ⟨"a.tmpl", if sc.hasMaterial then .fixed else .added, none⟩, template bs') := by
  have hn := templates.normalize_of_incorrect hgen hi hc (e := (Lines.ofText (decode bs)).lineEnd)
  rw [hrebuild, if_neg hchange] at hn
  have hhalt := halt?_eq_none linePatterns_templates (Lines.ofText (decode bs)).all ext
    ("dummy" ++ ext)
  have hch : (if sc.hasMaterial then Outcome.fixed else .added).changes = true := by
    split <;> rfl
  rw [fixFile_of_source (read_template bs) (source?_template hne h)]
  unfold fixSource normalizeSource
  dsimp only [templateSource]
  rw [unlessHalted_of_not_halt? hhalt, hn, Except.mapError]
  dsimp only [Source.render]
  rw [hch, if_neg (by decide), hrender]
  dsimp only [unhindered]
  rw [replaceFile_template]

lemma classify_template (text : Text) {ext : String} (hbinary : isBinary bs = false)
    (ht : decodeLossy bs = text) (h : guess text "a.tmpl" = ext) :
    classify templates.files bs "a.tmpl" = some ext := by
  have hname : baseName "a.tmpl" = Text.ofString "a.tmpl" := by decide
  rw [classify, hbinary, ht, ofText, hname, ← h]
  rfl

/-! ### A list of YAML, with and without a title -/

def listed : Bytes := ascii "list:\n"

def listedFixed : Bytes := ascii "# Copyright ACME 2025\n\nlist:\n"

/-- What is found in the list. -/
def listScan : Scan := ⟨⟨.line "#", "# Copyright ACME 2025", none⟩, 0, [.content]⟩

lemma classify_listed : classify templates.files listed "a.tmpl" = some ".yaml" :=
  classify_template "list:\n" (by decide) (by decide) (by decide)

lemma render_templates_yaml : Header.render templates ".yaml" = .ok listScan.header := by cbv

lemma fixFile_listed : templates.fixFile unhindered (template listed) "a.tmpl" =
    (.ok ⟨"a.tmpl", .added, none⟩, template listedFixed) :=
  fixFile_template (by decide) classify_listed (by decide)
    (templates.inspect_eq_ok_iff.mpr ⟨render_templates_yaml, by decide, by decide⟩) (by decide)
    (show _ = (["# Copyright ACME 2025", "", "list:"] : List Text) by decide) (by decide)
    (by decide)

theorem listed_fixed_twice :
    classify templates.files listedFixed "a.tmpl" = classify templates.files listed "a.tmpl" ∧
    ∀ obstacles : Obstacles,
      templates.fixFile obstacles (template listedFixed) "a.tmpl" =
        (.ok ⟨"a.tmpl", .unchanged, none⟩, template listedFixed) := by
  have hsrc : templates.source? "a.tmpl" listed = some (templateSource listed ".yaml") :=
    source?_template (by decide) classify_listed
  have hheader {P : Header → Prop} (hp : P listScan.header) :
      ∀ h, Header.render templates ".yaml" = .ok h → P h := fun h hh => by
    obtain rfl := Except.ok.inj (render_templates_yaml.symm.trans hh)
    exact hp
  obtain ⟨hiff, hsecond, hsafe⟩ := fixFile_twice
    { read := read_template listed
      text := by decide
      source := hsrc
      smart := rfl
      written := by decide
      fix := fixFile_listed
      issue := rfl
      readAgain := read_template listedFixed }
    { usual := rfl
      lines := hheader (by decide)
      discreet := fun h _ => ⟨fun _ t ht => by rw [eq_of_isHeaderText_templates ht]; decide,
        fun _ hi => absurd hi List.not_mem_nil⟩
      below := fun sc _ l hl => by
        simp [noticesAbove, templates, Settings.default, ThirdParty.default] at hl }
    { inLine := by decide
      closed := fun _ => by decide
      mute := hheader (by decide) }
  have hhalt := hsafe linePatterns_templates
  have hclass := hiff.mpr (by decide)
  refine ⟨hclass, fun obstacles => ?_⟩
  rw [hsecond hclass, hhalt]
  rfl

def titled : Bytes := ascii "title:\n"

def titledFixed : Bytes := ascii "# Copyright ACME 2025\n\ntitle:\n"

def titledTwice : Bytes :=
  ascii "<!-- Copyright ACME 2025 -->\n\n# Copyright ACME 2025\n\ntitle:\n"

/-- What is found when the fixed list counts as Markdown. -/
def markdownScan : Scan :=
  ⟨⟨.html, "<!-- Copyright ACME 2025 -->", none⟩, 0, [.content, .content, .content]⟩

lemma inspect_titledFixed :
    templates.inspect (Lines.ofText (decode titledFixed)).all ".md" "dummy.md" =
      .ok markdownScan :=
  templates.inspect_eq_ok_iff.mpr ⟨by cbv, by decide, by decide⟩

/-- **A header makes a list of YAML with a title a file of Markdown**, to which the next fix adds a
header of its own. -/
theorem titled_gets_two_headers :
    classify templates.files titled "a.tmpl" = some ".yaml" ∧
    templates.fixFile unhindered (template titled) "a.tmpl" =
      (.ok ⟨"a.tmpl", .added, none⟩, template titledFixed) ∧
    classify templates.files titledFixed "a.tmpl" = some ".md" ∧
    templates.fixFile unhindered (template titledFixed) "a.tmpl" =
      (.ok ⟨"a.tmpl", .added, none⟩, template titledTwice) ∧ titledTwice ≠ titledFixed := by
  have hyaml : classify templates.files titled "a.tmpl" = some ".yaml" :=
    classify_template "title:\n" (by decide) (by decide) (by decide)
  have hmarkdown : classify templates.files titledFixed "a.tmpl" = some ".md" :=
    classify_template "# Copyright ACME 2025\n\ntitle:\n" (by decide) (by decide) (by decide)
  have hfirst : templates.inspect (Lines.ofText (decode titled)).all ".yaml" "dummy.yaml" =
      .ok listScan :=
    templates.inspect_eq_ok_iff.mpr ⟨render_templates_yaml, by decide, by decide⟩
  refine ⟨hyaml, ?_, hmarkdown, ?_, by decide⟩
  · exact fixFile_template (by decide) hyaml (by decide) hfirst (by decide)
      (show _ = (["# Copyright ACME 2025", "", "title:"] : List Text) by decide) (by decide)
      (by decide)
  · exact fixFile_template (by decide) hmarkdown (by decide) inspect_titledFixed (by decide)
      (show _ = (["<!-- Copyright ACME 2025 -->", "", "# Copyright ACME 2025", "", "title:"] :
        List Text) by decide) (by decide) (by decide)

end Settings

end Letterhead
