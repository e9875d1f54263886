import Mathlib.Data.Set.Card
import Letterhead.Proofs.Source
import Letterhead.Proofs.Header.Comment
import Letterhead.Proofs.Run.Fix
import Letterhead.Proofs.Run.Turn

/-!
What a run leaves behind, and what it reports.

The files of a run through the folders are in different places, so the run leaves what its turns
wrote and nothing else. The report counts the turns. It tells the number of files that differ, if
other lines have other bytes: so they do where the header is of scalar values, but two surrogates
of a header may have the bytes of one character in a file.
-/

namespace Letterhead

open Letterhead.Tree

namespace Settings

variable {s : Settings}

/-! ### Bytes that differ -/

lemma lines_ne_of_changes {ls : List Text} {ext filename : String} {e : LineEnd} {n : Normalized}
    (hn : s.normalize ls ext filename e = .ok n) (hch : n.outcome.changes = true) :
    n.lines ≠ ls := by
  obtain ⟨sc, hgen, hi, hc, hlines, -⟩ := s.normalize_changes hn hch
  intro heq
  rw [s.normalize_of_incorrect hgen hi hc, if_pos (hlines ▸ heq)] at hn
  obtain rfl := Except.ok.inj hn
  cases hch

/-- The header is of single lines of scalar values. -/
def HasPlainHeader (s : Settings) : Prop :=
  ∀ ext h, Header.render s ext = .ok h → h.IsSingleLine ∧ ∀ l ∈ h.lines, ∀ c ∈ l, c.IsScalar

section Texts

variable (hstyles : ∀ m ∈ s.files.commentStyles, CodePoint.ofChar '\n' ∉ Text.ofString m.2)

include hstyles

lemma isSingleLine_of_texts (htexts : ∀ t, s.IsHeaderText t → CodePoint.ofChar '\n' ∉ t)
    {ext : String} {h : Header} (hr : Header.render s ext = .ok h) : h.IsSingleLine := by
  have hall := forall_mem_of_render (p := (· ≠ CodePoint.ofChar '\n')) (by decide)
    (fun m hm c hc heq => hstyles m hm (heq ▸ hc))
    (fun t ht c hc heq => htexts t ht (heq ▸ hc)) hr
  intro l hl hnewline
  refine hall l ?_ _ hnewline rfl
  rcases List.mem_cons.mp hl with rfl | hl
  · exact Header.copyright_mem_lines
  · exact Header.license_mem_lines (Option.mem_toList.mp hl)

lemma hasPlainHeader_of_texts
    (htexts : ∀ t, s.IsHeaderText t → CodePoint.ofChar '\n' ∉ t ∧ ∀ c ∈ t, c.IsScalar) :
    s.HasPlainHeader := by
  intro ext h hr
  refine ⟨isSingleLine_of_texts hstyles (fun t ht => (htexts t ht).1) hr, ?_⟩
  refine forall_mem_of_render (by decide) (fun m _ c hc => ?_) (fun t ht => (htexts t ht).2) hr
  obtain ⟨a, -, rfl⟩ := List.mem_map.mp hc
  exact CodePoint.isScalar_ofChar a

end Texts

lemma NormalizesTo.ne (hplain : s.HasPlainHeader) {bs data : Bytes} {o : Outcome}
    (h : s.NormalizesTo path bs o data) (hch : o.changes = true) : data ≠ bs := by
  obtain ⟨src, n, hsrc, hn, rfl, hrender⟩ := h
  have hlines := lines_of_source? hsrc
  obtain ⟨sc, -, hi, -, hnew, -⟩ := s.normalize_changes hn hch
  obtain ⟨hsingle, hscalar⟩ := hplain _ _ (s.inspect_eq_ok_iff.mp hi).1
  rintro rfl
  rw [Source.render, hnew, hlines] at hrender
  rw [hlines] at hi
  have hdecode := decode_of_render_rebuild hi hscalar hrender
  have hls : ∀ l ∈ (Lines.ofText (Utf8.decode data)).all, CodePoint.ofChar '\n' ∉ l :=
    fun l hl => Lines.not_mem_of_mem_ofText hl
  refine lines_ne_of_changes hn hch ?_
  rw [hnew, hlines]
  exact Lines.join_inj (s.rebuild_ne_nil _ _ _) (Text.cutAt_ne_nil _ _)
    (s.rebuild_not_mem hi hls hsingle.not_mem_lines) hls
    (hdecode.symm.trans (Lines.toText_ofText (Utf8.decode data)).symm)

end Settings

/-! ### The account -/

namespace Project

lemma select_sublist {s : Settings} {files chosen : List String}
    (h : select s files = .ok chosen) : chosen.Sublist files := by
  induction files generalizing chosen with
  | nil =>
    obtain rfl := Except.ok.inj h
    exact .refl _
  | cons f files ih =>
    rw [select] at h
    split at h
    · obtain ⟨more, hmore, h⟩ := bind_eq_ok_iff.mp h
      obtain rfl := Except.ok.inj h
      split
      · exact (ih hmore).cons_cons f
      · exact (ih hmore).cons f
    · cases h

/-- The files of a run through the folders are different files. -/
theorem apart_candidates {p : Project} {s : Settings} {path : String} {files : List String}
    (hproper : p.tree.IsProper) (hwalk : s.files.gitTracked = false)
    (h : p.candidates s path = .ok files) : files.Nodup ∧ p.tree.Apart files := by
  obtain ⟨all, hall, hselect⟩ := bind_eq_ok_iff.mp h
  have hsub := select_sublist hselect
  rw [Project.files, hwalk, if_neg (by decide)] at hall
  split at hall
  · next all' hfiles =>
    obtain rfl := Except.ok.inj hall
    obtain ⟨hnodup, hapart⟩ := apart_filesAt hproper hfiles
    exact ⟨hnodup.sublist hsub, List.Pairwise.sublist hsub hapart⟩
  · cases hall
  · cases hall

/-- What a run does to the tree, told by its turns. -/
structure Account (s : Settings) (obstacles : Obstacles) (t u : Tree) (turns : List Turn)
    (r : FixReport) : Prop where
  turn : ∀ τ ∈ turns, ∃ w, s.fixFile obstacles τ.before τ.fix.path = (.ok τ.fix, w)
  /-- Each outcome is counted. -/
  fixed : r.fixed = turns.countP (·.fix.counts .fixed)
  added : r.added = turns.countP (·.fix.counts .added)
  changed : r.changed = turns.countP (decide ·.fix.IsChange)
  /-- Each file that could not be done has one issue, in the order of the turns. -/
  errors : r.errors = turns.filterMap (·.fix.issue)
  named : ∀ τ ∈ turns, ∀ i ∈ τ.fix.issue, i.file = τ.fix.path
  /-- Each file that was changed is a regular file with its normal form and its mode. -/
  replaced : ∀ τ ∈ turns, τ.fix.IsChange → ∃ place bs data mode, s.Replaced t u τ place bs data mode
  /-- Every other file is as it was, and so is everything else. -/
  kept : ∀ τ ∈ turns, ¬ τ.fix.IsChange → ∀ l, t.locate τ.fix.path false = .ok l →
    u.nodeAt l = t.nodeAt l
  frame : ∀ l, (∀ τ ∈ turns, τ.fix.IsChange → t.locate τ.fix.path false ≠ .ok l) →
    u.nodeAt l = t.nodeAt l

section Account

variable {s : Settings} {obstacles : Obstacles} {t u : Tree} {files : List String} {r : FixReport}

lemma countP_isChange (fs : List FileFix) :
    fs.countP (·.counts .fixed) + fs.countP (·.counts .added) =
      fs.countP (decide ·.IsChange) := by
  induction fs with
  | nil => rfl
  | cons f fs ih =>
    obtain ⟨path, outcome, _ | i⟩ := f
    · cases outcome <;> simp [FileFix.counts, FileFix.IsChange, Outcome.changes] at ih ⊢ <;> omega
    · simpa [FileFix.counts, FileFix.IsChange] using ih

section Places

variable (hapart : t.Apart files)
  (hpaths : (s.turns obstacles t files).map (·.fix.path) = files)

include hapart hpaths

lemma turns_place_ne {τ τ' : Turn} (hτ : τ ∈ s.turns obstacles t files)
    (hτ' : τ' ∈ s.turns obstacles t files) (hne : τ ≠ τ') {l : Location}
    (hl : t.locate τ.fix.path false = .ok l) : t.locate τ'.fix.path false ≠ .ok l := by
  rw [← hpaths] at hapart
  have : Std.Symm fun τ τ' : Turn =>
      ∀ l, t.locate τ.fix.path false = .ok l → t.locate τ'.fix.path false ≠ .ok l :=
    ⟨fun _ _ h l hl hl' => h l hl' hl⟩
  exact (List.pairwise_map.mp hapart).forall hτ hτ' hne l hl

lemma ncard_places (hplaced : ∀ τ ∈ s.turns obstacles t files, τ.fix.IsChange →
      ∃ place, t.locate τ.fix.path false = .ok place) :
    {l | ∃ τ ∈ s.turns obstacles t files, τ.fix.IsChange ∧
        t.locate τ.fix.path false = .ok l}.ncard =
      (s.turns obstacles t files).countP (decide ·.fix.IsChange) := by
  set placeOf : Turn → Location := fun τ => (t.locate τ.fix.path false).toOption.getD []
  set changed := (s.turns obstacles t files).filter (decide ·.fix.IsChange)
  have hmem : ∀ {τ}, τ ∈ changed ↔ τ ∈ s.turns obstacles t files ∧ τ.fix.IsChange := by
    simp [changed]
  have hplaceOf : ∀ τ ∈ changed, t.locate τ.fix.path false = .ok (placeOf τ) := by
    intro τ hτ
    obtain ⟨place, hplace⟩ := hplaced τ (hmem.mp hτ).1 (hmem.mp hτ).2
    simp [placeOf, hplace, Except.toOption]
  have hnodup : (changed.map placeOf).Nodup := by
    rw [← hpaths] at hapart
    have hfiltered := (List.pairwise_map.mp hapart).sublist
      (List.filter_sublist (p := (decide ·.fix.IsChange)))
    refine List.pairwise_map.mpr (hfiltered.imp_of_mem fun {τ τ'} hτ hτ' hne heq => ?_)
    exact hne _ (hplaceOf τ hτ) (heq ▸ hplaceOf τ' hτ')
  have hset : {l | ∃ τ ∈ s.turns obstacles t files, τ.fix.IsChange ∧
      t.locate τ.fix.path false = .ok l} = ((changed.map placeOf).toFinset : Set Location) := by
    ext l
    simp only [Set.mem_ofPred_eq, List.coe_toFinset, List.mem_map]
    constructor
    · rintro ⟨τ, hτ, hch, hl⟩
      have hτ' := hmem.mpr ⟨hτ, hch⟩
      exact ⟨τ, hτ', Except.ok.inj ((hplaceOf τ hτ').symm.trans hl)⟩
    · rintro ⟨τ, hτ, rfl⟩
      exact ⟨τ, (hmem.mp hτ).1, (hmem.mp hτ).2, hplaceOf τ hτ⟩
  rw [hset, Set.ncard_coe_finset, List.toFinset_card_of_nodup hnodup, List.length_map,
    List.countP_eq_length_filter]

end Places

lemma account_of_turns (hapart : t.Apart files)
    (h : s.fixFiles obstacles .empty t files = (.ok r, u)) :
    Account s obstacles t u (s.turns obstacles t files) r := by
  obtain ⟨hpaths, hreport⟩ := Settings.report_of_turns h
  obtain ⟨-, hframe⟩ := Settings.turns_frame h
  rw [FixReport.foldl_record] at hreport
  have hcount : ∀ p : FileFix → Bool, ((s.turns obstacles t files).map (·.fix)).countP p =
      (s.turns obstacles t files).countP fun τ => p τ.fix := fun p => List.countP_map
  have hreplaced := Settings.turns_replaced hapart h
  refine ⟨fun τ hτ => Settings.fixFile_of_mem_turns hτ, ?_, ?_, ?_, ?_, ?_, hreplaced, ?_, hframe⟩
  · simp [hreport, hcount, FixReport.empty]
  · simp [hreport, hcount, FixReport.empty]
  · refine Eq.trans ?_ (hcount fun f => decide f.IsChange)
    rw [← countP_isChange]
    simp [hreport, FixReport.changed, FixReport.empty]
  · simp [hreport, FixReport.empty, List.filterMap_map, Function.comp_def]
  · intro τ hτ
    obtain ⟨w, hfix⟩ := Settings.fixFile_of_mem_turns hτ
    exact (Settings.fixFile_cases hfix).2.1
  · intro τ hτ hno l hl
    refine hframe l fun τ' hτ' hch => ?_
    exact turns_place_ne hapart hpaths hτ hτ' (fun heq => hno (heq ▸ hch)) hl

end Account

/-- **What a run leaves behind.** The run goes through the files that are meant, one turn each. The
report counts what became of them, with one issue for each file that could not be done, in this
order. Each file that was changed is a regular file afterwards, with its normal form and the mode of
what its path led to. Everything else is as it was, whether the run came to it or not, and no file
is left over. And if the header is of scalar values, exactly the files that were changed differ, and
the report tells their number. -/
theorem fix_account {p p' : Project} {s : Settings} {obstacles : Obstacles} {path : String}
    {r : FixReport} (hproper : p.tree.IsProper)
    (htracked : s.files.gitTracked = true →
      ∀ files, p.candidates s path = .ok files → p.tree.Apart files)
    (hrun : p.fix s obstacles path = (.ok r, p')) :
    ∃ files, p.candidates s path = .ok files ∧ p'.tracked = p.tracked ∧
      (s.turns obstacles p.tree files).map (·.fix.path) = files ∧
      Account s obstacles p.tree p'.tree (s.turns obstacles p.tree files) r ∧
      (s.HasPlainHeader →
        (∀ l, p'.tree.nodeAt l ≠ p.tree.nodeAt l ↔
          ∃ τ ∈ s.turns obstacles p.tree files, τ.fix.IsChange ∧
            p.tree.locate τ.fix.path false = .ok l) ∧
        {l | p'.tree.nodeAt l ≠ p.tree.nodeAt l}.ncard = r.changed) := by
  unfold fix at hrun
  split at hrun
  · cases hrun
  next files hfiles =>
  obtain ⟨hr, rfl⟩ := Prod.mk.inj hrun
  have hapart : p.tree.Apart files := by
    cases hwalk : s.files.gitTracked with
    | true => exact htracked hwalk files hfiles
    | false => exact (apart_candidates hproper hwalk hfiles).2
  set u := (s.fixFiles obstacles .empty p.tree files).2
  have hdone : s.fixFiles obstacles .empty p.tree files = (.ok r, u) := Prod.ext hr rfl
  have haccount := account_of_turns hapart hdone
  have hpaths := (Settings.report_of_turns hdone).1
  refine ⟨files, hfiles, rfl, hpaths, haccount, fun hplain => ?_⟩
  have hdiffers : ∀ l, u.nodeAt l ≠ p.tree.nodeAt l ↔
      ∃ τ ∈ s.turns obstacles p.tree files, τ.fix.IsChange ∧
        p.tree.locate τ.fix.path false = .ok l := by
    intro l
    constructor
    · intro hne
      by_contra hno
      exact hne (haccount.frame l fun τ hτ hch hl => hno ⟨τ, hτ, hch, hl⟩)
    · rintro ⟨τ, hτ, hch, hl⟩ heq
      obtain ⟨place, bs, data, mode, hτ'⟩ := haccount.replaced τ hτ hch
      obtain rfl := Except.ok.inj (hτ'.locate.symm.trans hl)
      have hdata := hτ'.normal.ne hplain hch.2
      rw [hτ'.new] at heq
      rcases hτ'.old with ⟨target, hlink⟩ | hfile
      · cases heq.trans hlink
      · cases heq.trans hfile
        exact hdata rfl
  refine ⟨hdiffers, ?_⟩
  rw [haccount.changed, ← ncard_places hapart hpaths fun τ hτ hch => ?_]
  · congr 1
    ext l
    exact hdiffers l
  · obtain ⟨place, _, _, _, hτ'⟩ := haccount.replaced τ hτ hch
    exact ⟨place, hτ'.locate⟩

section Sample

open Settings (plain unhindered goFile)

lemma hasPlainHeader_plain : plain.HasPlainHeader := by
  refine Settings.hasPlainHeader_of_texts (by decide) fun t ht => ?_
  have htext : plain.copyrightText = .ok ("Copyright ACME 2025" : Text) := by cbv
  rw [Settings.eq_of_isHeaderText htext rfl ht]
  decide

/-- A file of Go, a link that leads nowhere, and a file that is not meant. -/
def mixed : Project :=
  ⟨.ofFolder [("a.go", .file goFile 0o755), ("b.go", .link "gone"), ("c.txt", .file [] 0o644)],
    none⟩

lemma mixed_isProper : mixed.tree.IsProper := by
  refine Entry.isProper_folder (by decide) (by decide) fun c hc =>
    Entry.isProper_of_not_isFolder ?_
  decide +revert

lemma mixed_candidates : mixed.candidates plain "." = .ok ["./a.go", "./b.go"] := by
  have hb : IsAtTop "./b.go" "b.go" := by decide
  have hgone : IsAtTop "gone" "gone" := by decide
  have hcounts : mixed.tree.countsAsFile [] "b.go" (.link "gone") = true := by
    have hlocate := hb.locate_of_no_target (t := mixed.tree) rfl rfl hgone rfl
    rw [hb.locate_eq rfl] at hlocate
    rw [countsAsFile, hlocate]
    rfl
  have hfiles : mixed.tree.filesAt? "." = .ok (some ["./a.go", "./b.go", "./c.txt"]) := by
    refine filesAt?_point ["a.go", "b.go", "c.txt"] (by decide) ?_ (by decide)
    rw [List.filter_eq_self.mpr]
    · rfl
    · simp only [List.forall_mem_cons]
      exact ⟨rfl, hcounts, rfl, by simp⟩
  have hgo : plain.selects "./a.go" = .ok true := rfl
  have hgo' : plain.selects "./b.go" = .ok true := rfl
  have htxt : plain.selects "./c.txt" = .ok false := rfl
  rw [candidates, files, if_neg (by decide), hfiles]
  simp [bind, Except.bind, pure, Except.pure, select, hgo, hgo', htxt]

theorem mixed_account :
    ∃ p', mixed.fix plain unhindered "." =
        (.ok ⟨0, 1, [⟨"./b.go", .unreadable, IoError.notFound.message "./b.go"⟩]⟩, p') ∧
      {l | p'.tree.nodeAt l ≠ mixed.tree.nodeAt l}.ncard = 1 := by
  have ha : IsAtTop "./a.go" "a.go" := by decide
  have hb : IsAtTop "./b.go" "b.go" := by decide
  have hfile : mixed.tree.nodeAt ["a.go"] = some (.file goFile 0o755) := rfl
  obtain ⟨u₁, hfix₁, hu₁, hbase₁⟩ :=
    Settings.fixFile_of_turn (Settings.turn_of_goFile (by decide) (ha.view_of_file rfl hfile))
  have hlink : u₁.nodeAt ["b.go"] = some (.link "gone") := by rw [hu₁]; rfl
  have hnone : u₁.nodeAt ["gone"] = none := by rw [hu₁]; rfl
  have hread : u₁.read "./b.go" = .error .notFound :=
    hb.read_of_no_target hbase₁ hlink (by decide) hnone
  obtain ⟨u₂, hfix₂, -⟩ := Settings.fixFile_of_turn (plain.turn_of_unreadable unhindered hread)
  have hrun : mixed.fix plain unhindered "." =
      (.ok ⟨0, 1, [⟨"./b.go", .unreadable, IoError.notFound.message "./b.go"⟩]⟩, ⟨u₂, none⟩) := by
    simp [fix, mixed_candidates, Settings.fixFiles, hfix₁, hfix₂, FixReport.record, FixReport.empty]
    rfl
  obtain ⟨files, -, -, -, -, hplain⟩ := fix_account mixed_isProper
    (fun h => absurd h (by decide)) hrun
  exact ⟨_, hrun, (hplain hasPlainHeader_plain).2⟩

/-- Settings with years that are formatted as characters that stand for single bytes. -/
def stray : Settings :=
  { Settings.default 2025 with
    copyright := ⟨"ACME", 0xDCC3, 0xDCA9,
      "Copyright \x7bholder\x7d 2025 \x7bstart_year:c\x7d\x7bcurrent_year:c\x7d"⟩
    files := { Settings.Files.default with extensions := [".go"] } }

/-- The same bytes stand for one character in a file. -/
def accented : Bytes :=
  Settings.ascii "// Copyright ACME 2025 " ++ [0xC3, 0xA9] ++ Settings.ascii "\n\nx\n"

def strayHeader : Header :=
  ⟨.line "//", Text.ofString "// Copyright ACME 2025 " ++ [⟨0xDCC3⟩, ⟨0xDCA9⟩], none⟩

lemma render_stray : Header.render stray ".go" = .ok strayHeader := by cbv

lemma fate_stray (describe : IoError → String) (path : String) {v : View}
    (hext : stray.effectiveExtension path = (".go", false)) (hcontent : v.content = .ok accented)
    (hfree : v.hindrance = none) :
    stray.fate describe path v = .ok (⟨path, .fixed, none⟩, some accented) := by
  have hsrc : stray.source? path accented =
      some ⟨path, accented, Lines.ofText (Utf8.decode accented), ".go", path, false⟩ := by
    unfold Settings.source?
    rw [hext]
    rfl
  have hi : stray.inspect (Lines.ofText (Utf8.decode accented)).all ".go" path =
      .ok ⟨strayHeader, 0, [.ownStale, .content, .content]⟩ :=
    stray.inspect_eq_ok_iff.mpr ⟨render_stray, rfl, by cbv⟩
  have hn := stray.normalize_of_incorrect (e := (Lines.ofText (Utf8.decode accented)).lineEnd)
    (by decide) hi (by decide)
  have hnew : stray.rebuild ⟨strayHeader, 0, [.ownStale, .content, .content]⟩
      (Lines.ofText (Utf8.decode accented)).all (Lines.ofText (Utf8.decode accented)).lineEnd =
        [strayHeader.copyright, [], Text.ofString "x"] := by decide
  rw [hnew, if_neg (by decide)] at hn
  refine Settings.fate_of_render hcontent hsrc
    (Settings.normalizeSource_eq_ok_iff.mpr ⟨?_, hn⟩) rfl rfl hfree
  exact Settings.halt?_eq_none (fun _ hp => absurd hp List.not_mem_nil) _ _ _

lemma isSingleLine_stray {ext : String} {h : Header} (hr : Header.render stray ext = .ok h) :
    h.IsSingleLine := by
  refine Settings.isSingleLine_of_texts (by decide) (fun t ht => ?_) hr
  have htext : stray.copyrightText =
      .ok (Text.ofString "Copyright ACME 2025 " ++ [⟨0xDCC3⟩, ⟨0xDCA9⟩]) := by cbv
  rw [Settings.eq_of_isHeaderText htext rfl ht]
  decide

/-- A file with the old header of the same bytes. -/
def accentedGo : Project := ⟨.ofFolder [("a.go", .file accented 0o644)], none⟩

/-- **A file may be counted that does not differ**: its lines were changed, and have the bytes that
they had. -/
theorem accentedGo_counts_no_difference :
    accentedGo.tree.IsProper ∧ (∀ ext h, Header.render stray ext = .ok h → h.IsSingleLine) ∧
      ∃ r p', accentedGo.fix stray unhindered "." = (.ok r, p') ∧ r.changed = 1 ∧
        p'.tree.nodeAt = accentedGo.tree.nodeAt := by
  have ha : IsAtTop "./a.go" "a.go" := by decide
  have hfile : accentedGo.tree.nodeAt ["a.go"] = some (.file accented 0o644) := rfl
  have hview : accentedGo.tree.view "./a.go" (unhindered.hinders "./a.go") =
      ⟨.ok accented, .ok 0o644, .ok ["a.go"], none⟩ := ha.view_of_file rfl hfile
  have hfate := fate_stray (unhindered.describe "./a.go") "./a.go" (by decide)
    (congrArg View.content hview) (congrArg View.hindrance hview)
  obtain ⟨u, hfix, hu, -⟩ := Settings.fixFile_of_turn
    (Settings.turn_of_write hfate (congrArg View.place hview) (congrArg View.mode hview))
  have hcandidates : accentedGo.candidates stray "." = .ok ["./a.go"] := by
    have hfiles : accentedGo.tree.filesAt? "." = .ok (some ["./a.go"]) :=
      filesAt?_point ["a.go"] (by decide) (by decide) (by decide)
    have hgo : stray.selects "./a.go" = .ok true := rfl
    rw [candidates, files, if_neg (by decide), hfiles]
    simp [bind, Except.bind, pure, Except.pure, select, hgo]
  refine ⟨?_, fun ext h hr => isSingleLine_stray hr, ⟨1, 0, []⟩, ⟨u, none⟩, ?_, rfl, ?_⟩
  · refine Entry.isProper_folder (by decide) (by decide) fun c hc =>
      Entry.isProper_of_not_isFolder ?_
    decide +revert
  · simp [fix, hcandidates, Settings.fixFiles, hfix, FixReport.record, FixReport.empty]
    rfl
  · rw [hu]
    exact Function.update_eq_self_iff.mpr hfile.symm

end Sample

end Project

end Letterhead
