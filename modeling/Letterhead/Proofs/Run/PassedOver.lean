import Letterhead.Proofs.ContentType.Indicator
import Letterhead.Proofs.Run.Return
import Letterhead.Proofs.Settings.ReadBack

/-!
Files that are passed over without a word.

Where the content of a file is to tell its extension, a binary file has none and is passed over. So
is a file of text for which the settings have an empty extension: that of the candidate that wins,
or the default one. No other file is: a check is silent about it only if it is generated or in
order, and a fix skips it only if it is generated.
-/

namespace Letterhead

open Utf8 ContentType

namespace ContentType

variable {f : Settings.Files} {bs : Bytes}

/-- A zero is among the first 512 bytes. -/
def HasEarlyZero (bs : Bytes) : Prop := ∃ i < 512, bs[i]? = some 0

lemma isBinary_iff : isBinary bs = true ↔ HasEarlyZero bs := by
  rw [isBinary, List.contains_iff_mem, List.mem_iff_getElem?, HasEarlyZero]
  refine exists_congr fun i => ?_
  rw [List.getElem?_take, sniffed]
  by_cases h : i < 512 <;> simp [h]

instance (bs : Bytes) : Decidable (HasEarlyZero bs) := decidable_of_iff _ isBinary_iff

lemma guess_ne_empty (t name : Text) : guess t name ≠ "" := by
  unfold guess
  dsimp only
  split_ifs <;> decide

lemma ofText_eq_empty_iff (hkeys : (f.smartIndicators.map (·.1)).Nodup) (t : Text) (path : String) :
    ofText f t path = "" ↔ f.smartIndicators ≠ [] ∧ IsChosen f t (baseName path) "" := by
  by_cases hnone : f.smartIndicators = []
  · have hguess : ofText f t path = guess t (baseName path) := by rw [ofText, hnone]; rfl
    rw [hguess]
    exact iff_of_false (guess_ne_empty t _) fun h => h.1 hnone
  · constructor
    · intro h
      exact ⟨hnone, h ▸ isChosen_ofText hnone hkeys⟩
    · rintro ⟨-, h⟩
      exact (isChosen_ofText hnone hkeys).unique h

end ContentType

namespace Settings

variable {s : Settings} {obstacles : Obstacles} {t : Tree} {path : String} {bs : Bytes}
  {src : Source} {thisYear : Int} {d : Datum}

/-! ### Files that are not read -/

/-- The settings have an empty extension for the content of a file: that of the candidate that wins,
or the default one. -/
def LeavesUnnamed (s : Settings) (path : String) (bs : Bytes) : Prop :=
  s.files.smartIndicators ≠ [] ∧ IsChosen s.files (decodeLossy bs) (baseName path) ""

lemma source?_eq_none_iff_classify :
    s.source? path bs = none ↔ (s.effectiveExtension path).2 = true ∧
      (isBinary bs = true ∨ ofText s.files (decodeLossy bs) path = "") := by
  unfold source? classify
  dsimp only
  cases (s.effectiveExtension path).2 with
  | false => simp
  | true => cases isBinary bs <;> simp

/-- A file is not read just if its content should tell its extension, but is binary or tells an
empty one. -/
lemma source?_eq_none_iff (h : s.files.IsNormal) (path : String) (bs : Bytes) :
    s.source? path bs = none ↔ (s.effectiveExtension path).2 = true ∧
      (HasEarlyZero bs ∨ s.LeavesUnnamed path bs) := by
  rw [source?_eq_none_iff_classify, isBinary_iff, ofText_eq_empty_iff h.indicators]
  rfl

/-- No file is left without an extension if neither the default one nor that of a candidate is
empty. -/
lemma not_leavesUnnamed (hdefault : s.files.smartDefault ≠ "")
    (hkeys : "" ∉ s.files.smartIndicators.map (·.1)) (path : String) (bs : Bytes) :
    ¬ s.LeavesUnnamed path bs := by
  rintro ⟨-, hchosen⟩
  generalize hext : "" = ext at hchosen
  cases hchosen with
  | winner h =>
    obtain ⟨i, hi, -⟩ := h
    exact hkeys (hext ▸ List.mem_map_of_mem hi)
  | default h => exact hdefault hext.symm

/-! ### Files that are read -/

/-- The lines of a file are in order just if it is generated, or its header is looked for and
nothing is wrong with it. -/
lemma checkLines_eq_none_iff {file : String} {ls : List Text} {ext filename : String} :
    s.checkLines file ls ext filename = .ok none ↔ s.isGenerated ls = true ∨
      ∃ sc, s.inspect ls ext filename = .ok sc ∧ s.verdict sc ls.length = none := by
  cases hg : s.isGenerated ls with
  | true => exact iff_of_true (s.checkLines_of_generated hg) (.inl rfl)
  | false =>
    cases hi : s.inspect ls ext filename with
    | ok sc => simp [s.checkLines_of_ok hg hi]
    | error e =>
      cases hm : e.message? with
      | some m => simp [s.checkLines_of_reported hg hi hm]
      | none => simp [s.checkLines_of_unreported hg hi hm]

lemma outcome_eq_skipped_iff {ls : List Text} {ext filename : String} {e : LineEnd} {n : Normalized}
    (h : s.normalize ls ext filename e = .ok n) :
    n.outcome = .skipped ↔ s.isGenerated ls = true := by
  obtain ⟨hg, rfl⟩ | ⟨hg, sc, -, ⟨-, rfl⟩ | ⟨-, rfl⟩⟩ := s.normalize_cases h
  · simp [hg]
  · simp [hg]
  · rw [hg]
    dsimp only
    split_ifs <;> simp

/-- A file is inspected by a check and by a fix. -/
structure IsInspected (s : Settings) (obstacles : Obstacles) (t : Tree) (path : String)
    (src : Source) : Prop where
  check : s.checkFile t path = s.checkSource src
  fix : s.fixFile obstacles t path = s.fixSource obstacles t src
  /-- The check is silent only if no pattern ends it and the file is generated, or its header was
  looked for and nothing is wrong with it. -/
  silent_iff : s.checkFile t path = .ok none ↔
    src.bytes ≠ [] ∧ s.halt? src.lines.all src.extension src.name = none ∧
      (s.isGenerated src.lines.all = true ∨
        ∃ sc, s.inspect src.lines.all src.extension src.name = .ok sc ∧
          s.verdict sc src.lines.all.length = none)
  /-- The fix skips the file without an issue only if no pattern ends it and the file is
  generated. -/
  skipped_iff : (∃ u, s.fixFile obstacles t path = (.ok ⟨path, .skipped, none⟩, u)) ↔
    s.halt? src.lines.all src.extension src.name = none ∧ s.isGenerated src.lines.all = true

lemma isInspected (obstacles : Obstacles) (hread : t.read path = .ok bs)
    (hsrc : s.source? path bs = some src) : s.IsInspected obstacles t path src := by
  have hcheck : s.checkFile t path = s.checkSource src := checkFile_of_source hread hsrc
  refine ⟨hcheck, fixFile_of_source hread hsrc, ?_, ?_, ?_⟩
  · rw [hcheck, checkSource]
    by_cases hempty : src.bytes = []
    · simp [hempty]
    · rw [if_neg (by simpa using hempty), unlessHalted_eq_ok_iff, checkLines_eq_none_iff]
      exact (and_iff_right hempty).symm
  · rintro ⟨u, hfix⟩
    obtain ⟨n, hsource, hn, hf, -⟩ := normalize_of_fixFile hread hsrc hfix rfl
    exact ⟨(normalizeSource_eq_ok_iff.mp hsource).1,
      (outcome_eq_skipped_iff hn).mp (congrArg FileFix.outcome hf).symm⟩
  · rintro ⟨hhalt, hg⟩
    have hsource := normalizeSource_eq_ok_iff.mpr ⟨hhalt, s.normalize_of_generated hg⟩
    exact ⟨t, by rw [fixFile_of_unchanged hread hsrc hsource rfl, path_of_source? hsrc]⟩

lemma passed_over (obstacles : Obstacles) (hread : t.read path = .ok bs)
    (hsrc : s.source? path bs = none) :
    s.checkFile t path = .ok none ∧
      s.fixFile obstacles t path = (.ok ⟨path, .skipped, none⟩, t) := by
  rw [checkFile, fixFile, hread]
  dsimp only
  rw [hsrc]
  exact ⟨rfl, rfl⟩

end Settings

namespace Project

variable {p p' : Project} {s : Settings} {obstacles : Obstacles} {start path : String}
  {files : List String}

lemma exists_checkFile_of_check {issues : List Issue} (hfiles : p.candidates s start = .ok files)
    (hrun : p.check s start = .ok issues) (hf : path ∈ files) :
    ∃ o, s.checkFile p.tree path = .ok o ∧ ∀ i ∈ o, i ∈ issues := by
  obtain ⟨hall, rfl⟩ := (check_eq hfiles).mp hrun
  obtain ⟨o, ho⟩ := hall path hf
  refine ⟨o, ho, fun i hi => ?_⟩
  rw [List.mem_mergeSort, List.mem_filterMap]
  exact ⟨path, hf, (Settings.issueAt?_of_ok ho).trans hi⟩

lemma exists_turn_of_fix {r : FixReport} (hfiles : p.candidates s start = .ok files)
    (hrun : p.fix s obstacles start = (.ok r, p')) (hf : path ∈ files) :
    ∃ τ ∈ s.turns obstacles p.tree files, τ.fix.path = path ∧
      ∃ u, s.fixFile obstacles τ.before path = (.ok τ.fix, u) := by
  rw [fix_eq hfiles] at hrun
  obtain ⟨hpaths, -⟩ := Settings.report_of_turns (Prod.ext (Prod.mk.inj hrun).1 rfl)
  obtain ⟨τ, hτ, hpath⟩ := List.mem_map.mp (hpaths ▸ hf)
  obtain ⟨u, hu⟩ := Settings.fixFile_of_mem_turns hτ
  exact ⟨τ, hτ, hpath, u, hpath ▸ hu⟩

/-- How a file with these bytes at a path is treated. -/
structure Treatment (s : Settings) (path : String) (bs : Bytes) : Prop where
  source?_eq_none_iff : s.source? path bs = none ↔
    (s.effectiveExtension path).2 = true ∧ (HasEarlyZero bs ∨ s.LeavesUnnamed path bs)
  /-- It is only for a zero that it is not read, unless the settings have an empty extension for
  it. -/
  only_binary_iff :
    (s.source? path bs = none ↔ (s.effectiveExtension path).2 = true ∧ HasEarlyZero bs) ↔
      ¬ ((s.effectiveExtension path).2 = true ∧ ¬ HasEarlyZero bs ∧ s.LeavesUnnamed path bs)
  named : s.files.smartDefault ≠ "" → "" ∉ s.files.smartIndicators.map (·.1) →
    ¬ s.LeavesUnnamed path bs
  passed_over : ∀ obstacles t, t.read path = .ok bs → s.source? path bs = none →
    s.checkFile t path = .ok none ∧ s.fixFile obstacles t path = (.ok ⟨path, .skipped, none⟩, t)
  inspected : ∀ obstacles t src, t.read path = .ok bs → s.source? path bs = some src →
    s.IsInspected obstacles t path src
  /-- Runs that give a report check and fix it, if it is among their files. -/
  checked : ∀ (p : Project) start files issues, p.candidates s start = .ok files → path ∈ files →
    p.check s start = .ok issues →
    ∃ o, s.checkFile p.tree path = .ok o ∧ ∀ i ∈ o, i ∈ issues
  fixed : ∀ (p p' : Project) obstacles start files r, p.candidates s start = .ok files →
    path ∈ files → p.fix s obstacles start = (.ok r, p') →
    ∃ τ ∈ s.turns obstacles p.tree files, τ.fix.path = path ∧
      ∃ u, s.fixFile obstacles τ.before path = (.ok τ.fix, u)

/-- **Which files are passed over.** A file whose content should tell its extension is not read if
it is binary, and for no other reason but that the settings have an empty extension for it. A file
that is not read has no issue and is left as it is, without a word; every other one is inspected by
checks and fixes, and by the runs that have it among their files. -/
theorem treatment {thisYear : Int} {d : Datum} (hs : Settings.ofDatum thisYear d = .ok s)
    (path : String) (bs : Bytes) : Treatment s path bs where
  source?_eq_none_iff := Settings.source?_eq_none_iff (Settings.isNormal_of_ofDatum hs) path bs
  only_binary_iff := by
    rw [Settings.source?_eq_none_iff (Settings.isNormal_of_ofDatum hs)]
    tauto
  named hdefault hkeys := Settings.not_leavesUnnamed hdefault hkeys path bs
  passed_over obstacles _ hread hsrc := Settings.passed_over obstacles hread hsrc
  inspected obstacles _ _ hread hsrc := Settings.isInspected obstacles hread hsrc
  checked _ _ _ _ hfiles hf hrun := exists_checkFile_of_check hfiles hrun hf
  fixed _ _ _ _ _ _ hfiles hf hrun := exists_turn_of_fix hfiles hrun hf

section Sample

open Settings (Files plain goFile unhindered)

/-- Settings under which the content of templates tells their extension, with a default one. -/
def templated (smartDefault : String) : Settings :=
  { plain with
    files := { Files.default with
      smartExtensions := [".tmpl"]
      smartIndicators := [(".go", ⟨["package"], []⟩)]
      smartDefault := smartDefault } }

lemma ofDatum_templated (smartDefault : String) :
    Settings.ofDatum 2025 (templated smartDefault).toDatum = .ok (templated smartDefault) := by
  refine Settings.Checked.toExcept_eq_ok_iff.mpr (Settings.check_toDatum 2025 ⟨?_, .nil, ?_⟩ rfl)
  · simp [templated]
  · simp [templated, Files.default]

/-- A folder with a template. -/
def templateFolder (bs : Bytes) : Tree := .ofFolder [("a.tmpl", .file bs 0o644)]

lemma read_templateFolder (bs : Bytes) : (templateFolder bs).read "a.tmpl" = .ok bs := by
  have ha : Tree.IsAtTop "a.tmpl" "a.tmpl" := by decide
  exact ha.read_of_file rfl rfl

/-- A template for Go is inspected, and one that starts with a zero is not read. -/
theorem template_is_inspected :
    Settings.ofDatum 2025 (templated ".go").toDatum = .ok (templated ".go") ∧
      (∃ src, (templated ".go").source? "a.tmpl" goFile = some src ∧
        (templated ".go").IsInspected unhindered (templateFolder goFile) "a.tmpl" src) ∧
      (templated ".go").source? "a.tmpl" (0 :: goFile) = none := by
  have hs := ofDatum_templated ".go"
  have hgo := treatment hs "a.tmpl" goFile
  refine ⟨hs, ?_, (treatment hs "a.tmpl" (0 :: goFile)).source?_eq_none_iff.mpr
    ⟨by decide, .inl (by decide)⟩⟩
  cases hsrc : (templated ".go").source? "a.tmpl" goFile with
  | none =>
    rcases (hgo.source?_eq_none_iff.mp hsrc).2 with hzero | hunnamed
    · exact absurd hzero (by decide)
    · exact absurd hunnamed (hgo.named (by decide) (by decide))
  | some src => exact ⟨src, rfl, hgo.inspected unhindered _ src (read_templateFolder goFile) hsrc⟩

/-- A line of text that no indicator speaks for. -/
def line : Bytes := [0x78, 0x0A]

/-- **A file of text may be passed over**: no candidate wins, and the default extension is empty. -/
theorem unnamed_is_passed_over :
    Settings.ofDatum 2025 (templated "").toDatum = .ok (templated "") ∧
      ((templated "").effectiveExtension "a.tmpl").2 = true ∧ ¬ HasEarlyZero line ∧
      (templated "").source? "a.tmpl" line = none ∧
      (templated "").checkFile (templateFolder line) "a.tmpl" = .ok none ∧
      (templated "").fixFile unhindered (templateFolder line) "a.tmpl" =
        (.ok ⟨"a.tmpl", .skipped, none⟩, templateFolder line) := by
  have hsrc : (templated "").source? "a.tmpl" line = none := by decide
  obtain ⟨hcheck, hfix⟩ := Settings.passed_over unhindered (read_templateFolder line) hsrc
  exact ⟨ofDatum_templated "", by decide, by decide, hsrc, hcheck, hfix⟩

end Sample

end Project

end Letterhead
