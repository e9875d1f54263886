import Mathlib
import Letterhead.Proofs.Header.Reason

/-!
A rebuilt file, part by part: what lies before the offset and behind the window is as it was, the
header comes in at the offset with the notices of others that go next to it, and of the window
stay the lines that are kept.
-/

namespace Letterhead.Settings

variable (s : Settings) {ls : List Text} {ext filename : String} {e : LineEnd} {sc : Scan}

/-! ### What normalizing does -/

lemma normalize_of_generated (hg : s.isGenerated ls = true) :
    s.normalize ls ext filename e = .ok ⟨ls, .skipped, none⟩ := by
  simp [normalize, hg, pure, Except.pure]

lemma normalize_of_error {err : TemplateError} (hg : s.isGenerated ls = false)
    (hi : s.inspect ls ext filename = .error err) :
    s.normalize ls ext filename e = .error err := by
  simp [normalize, hg, hi, bind, Except.bind]

lemma normalize_of_correct (hg : s.isGenerated ls = false)
    (hi : s.inspect ls ext filename = .ok sc) (hc : sc.isCorrect = true) :
    s.normalize ls ext filename e = .ok ⟨ls, .unchanged, some sc⟩ := by
  simp [normalize, hg, hi, hc, bind, Except.bind, pure, Except.pure]

lemma normalize_of_incorrect (hg : s.isGenerated ls = false)
    (hi : s.inspect ls ext filename = .ok sc) (hc : sc.isCorrect = false) :
    s.normalize ls ext filename e = .ok ⟨s.rebuild sc ls e,
      if s.rebuild sc ls e = ls then .unchanged else if sc.hasMaterial then .fixed else .added,
      some sc⟩ := by
  by_cases heq : s.rebuild sc ls e = ls <;>
    simp [normalize, hg, hi, hc, heq, bind, Except.bind, pure, Except.pure]

lemma exists_normalize_of_inspect (hi : s.inspect ls ext filename = .ok sc) (e : LineEnd) :
    ∃ n, s.normalize ls ext filename e = .ok n := by
  cases hg : s.isGenerated ls with
  | true => exact ⟨_, s.normalize_of_generated hg⟩
  | false =>
    cases hc : sc.isCorrect with
    | true => exact ⟨_, s.normalize_of_correct hg hi hc⟩
    | false => exact ⟨_, s.normalize_of_incorrect hg hi hc⟩

/-- A generated file is skipped; any other one is looked at, and left alone if it is correct, and
rebuilt if it is not. -/
lemma normalize_cases {n : Normalized} (hn : s.normalize ls ext filename e = .ok n) :
    s.isGenerated ls = true ∧ n = ⟨ls, .skipped, none⟩ ∨
      s.isGenerated ls = false ∧ ∃ sc, s.inspect ls ext filename = .ok sc ∧
        (sc.isCorrect = true ∧ n = ⟨ls, .unchanged, some sc⟩ ∨
          sc.isCorrect = false ∧ n = ⟨s.rebuild sc ls e,
            if s.rebuild sc ls e = ls then .unchanged
            else if sc.hasMaterial then .fixed else .added,
            some sc⟩) := by
  cases hg : s.isGenerated ls with
  | true => exact .inl ⟨rfl, Except.ok.inj (hn.symm.trans (s.normalize_of_generated hg))⟩
  | false =>
    cases hi : s.inspect ls ext filename with
    | error err => cases hn.symm.trans (s.normalize_of_error hg hi)
    | ok sc =>
      refine .inr ⟨rfl, sc, rfl, ?_⟩
      cases hc : sc.isCorrect with
      | true => exact .inl ⟨rfl, Except.ok.inj (hn.symm.trans (s.normalize_of_correct hg hi hc))⟩
      | false =>
        exact .inr ⟨rfl, Except.ok.inj (hn.symm.trans (s.normalize_of_incorrect hg hi hc))⟩

lemma normalize_changes {n : Normalized} (hn : s.normalize ls ext filename e = .ok n)
    (hch : n.outcome.changes = true) :
    ∃ sc, s.isGenerated ls = false ∧ s.inspect ls ext filename = .ok sc ∧ sc.isCorrect = false ∧
      n.lines = s.rebuild sc ls e ∧ n.scan = some sc ∧
      n.outcome = if sc.hasMaterial then .fixed else .added := by
  obtain ⟨-, rfl⟩ | ⟨hg, sc, hi, ⟨-, rfl⟩ | ⟨hc, rfl⟩⟩ := s.normalize_cases hn
  · cases hch
  · cases hch
  · refine ⟨sc, hg, hi, hc, rfl, rfl, if_neg fun hsame => ?_⟩
    simp [hsame, Outcome.changes] at hch

/-! ### The header in a rebuilt file -/

/-- The header as it comes in, with the line end of the file. -/
def headerLines (sc : Scan) (e : LineEnd) : List Text := sc.header.lines.map (· ++ e.tail)

/-- The notices of others that go above the header. -/
def noticesAbove (sc : Scan) (ls : List Text) : List Text :=
  if s.thirdParty.action = .below then sc.notices ls else []

lemma inserted_eq (sc : Scan) (ls : List Text) (e : LineEnd) :
    ∃ ts, s.inserted sc ls e = s.noticesAbove sc ls ++ headerLines sc e ++ ts := by
  unfold inserted noticesAbove headerLines
  cases s.thirdParty.action with
  | leave => exact ⟨[], by simp⟩
  | above => exact ⟨sc.notices ls, by simp⟩
  | below => exact ⟨[], by simp⟩
  | replace => exact ⟨[], by simp⟩

lemma rebuild_eq_header (sc : Scan) (ls : List Text) (e : LineEnd) :
    ∃ rest, s.rebuild sc ls e =
      ls.take sc.offset ++ (s.noticesAbove sc ls ++ (headerLines sc e ++ rest)) := by
  obtain ⟨ts, hts⟩ := s.inserted_eq sc ls e
  exact ⟨_, by simp only [rebuild, hts, List.append_assoc]; rfl⟩

lemma noticesAbove_kind (hi : s.inspect ls ext filename = .ok sc) :
    s.noticesAbove sc ls = [] ∨ s.thirdParty.action = .below ∧
      ∀ t ∈ s.noticesAbove sc ls, s.lineKind sc.header t = .thirdParty := by
  unfold noticesAbove
  split
  · next hb => exact Or.inr ⟨hb, fun t ht => s.lineKind_of_mem_notices hi ht⟩
  · exact Or.inl rfl

lemma headerLines_ne_nil (sc : Scan) (e : LineEnd) : headerLines sc e ≠ [] := by
  simpa [headerLines] using sc.header.lines_ne_nil

lemma rebuild_ne_nil (sc : Scan) (ls : List Text) (e : LineEnd) : s.rebuild sc ls e ≠ [] := by
  obtain ⟨rest, hrest⟩ := s.rebuild_eq_header sc ls e
  simp [hrest, headerLines_ne_nil]

/-! ### The whole file -/

/-- The lines of the window with their kinds. -/
def windowEntries (sc : Scan) (ls : List Text) : List Entry :=
  (sc.window ls).map fun l => (l, s.lineKind sc.header l)

@[simp] lemma map_fst_windowEntries (sc : Scan) (ls : List Text) :
    (s.windowEntries sc ls).map Prod.fst = sc.window ls := by
  simp [windowEntries, Function.comp_def]

@[simp] lemma length_windowEntries (sc : Scan) (ls : List Text) :
    (s.windowEntries sc ls).length = (sc.window ls).length :=
  List.length_map _

/-- The fates of the lines of the window. -/
def windowFates (sc : Scan) (ls : List Text) : List Fate :=
  s.fates .copying (s.windowEntries sc ls)

lemma reason_windowFates (sc : Scan) (ls : List Text) :
    ∀ i < (s.windowFates sc ls).length,
      s.Reason .kept (s.windowEntries sc ls) (s.windowFates sc ls) i := by
  rw [windowFates, length_fates]
  exact s.reason_fates _ (Or.inl ⟨rfl, rfl⟩)

lemma windowEntries_eq_some_iff {i : Nat} {l : Text} {k : LineKind} :
    (s.windowEntries sc ls)[i]? = some (l, k) ↔
      (sc.window ls)[i]? = some l ∧ s.lineKind sc.header l = k := by
  unfold windowEntries
  rw [List.getElem?_map, Option.map_eq_some_iff]
  constructor
  · rintro ⟨l', hl, heq⟩
    obtain ⟨rfl, rfl⟩ := Prod.mk.inj heq
    exact ⟨hl, rfl⟩
  · rintro ⟨hl, rfl⟩
    exact ⟨l, hl, rfl⟩

lemma rebuild_eq (hi : s.inspect ls ext filename = .ok sc) (e : LineEnd) :
    s.rebuild sc ls e = ls.take sc.offset ++ s.inserted sc ls e ++ separator sc ls e ++
      keptLines (sc.window ls) (s.windowFates sc ls) ++ ls.drop sc.limit := by
  rw [rebuild, s.zip_kinds hi, survivors_eq_keptLines]
  rw [show (sc.window ls).map (fun l => (l, s.lineKind sc.header l)) = s.windowEntries sc ls
    from rfl, map_fst_windowEntries]
  rfl

/-- The lines from the offset on: the window, and the rest. -/
lemma drop_offset_eq (sc : Scan) (ls : List Text) :
    ls.drop sc.offset = sc.window ls ++ ls.drop sc.limit := by
  rw [Scan.window, Scan.limit, ← List.drop_drop, List.take_append_drop]

/-- The file as it was: what lies before the offset, the window, and the rest. -/
lemma eq_window (sc : Scan) (ls : List Text) :
    ls = ls.take sc.offset ++ sc.window ls ++ ls.drop sc.limit := by
  rw [List.append_assoc, ← drop_offset_eq, List.take_append_drop]

lemma mem_rebuild (hi : s.inspect ls ext filename = .ok sc) {l : Text}
    (hl : l ∈ s.rebuild sc ls e) : l ∈ ls ∨ l ∈ headerLines sc e ∨ l = e.tail := by
  have hwindow : ∀ l ∈ sc.window ls, l ∈ ls := fun l h =>
    List.mem_of_mem_drop (List.mem_of_mem_take h)
  have hnotices : ∀ l ∈ sc.notices ls, l ∈ ls := by
    intro l h
    rw [s.notices_eq_filter hi] at h
    exact hwindow l (List.mem_filter.mp h).1
  rw [s.rebuild_eq hi] at hl
  simp only [List.mem_append] at hl
  rcases hl with (((h | h) | h) | h) | h
  · exact Or.inl (List.mem_of_mem_take h)
  · unfold inserted at h
    split at h
    · rcases List.mem_append.mp h with h | h
      · exact Or.inr (Or.inl h)
      · exact Or.inl (hnotices l h)
    · rcases List.mem_append.mp h with h | h
      · exact Or.inl (hnotices l h)
      · exact Or.inr (Or.inl h)
    · exact Or.inr (Or.inl h)
  · unfold separator at h
    split at h
    · simp at h
    · exact Or.inr (Or.inr (by simpa using h))
  · exact Or.inl (hwindow l ((keptLines_sublist _ _).subset h))
  · exact Or.inl (List.mem_of_mem_drop h)

/-- **The body is kept.** A file that is rebuilt is as it was before the offset and behind the
window. In between come the header, with the line end of the file and with the notices of others
above or below it, an empty line unless a blank one follows, and those lines of the window that
are kept; every line of the window has a reason to be kept or to go. -/
theorem normalize_keeps_body (hg : s.isGenerated ls = false)
    (hi : s.inspect ls ext filename = .ok sc) (hc : sc.isCorrect = false) (e : LineEnd) :
    ls = ls.take sc.offset ++ sc.window ls ++ ls.drop sc.limit ∧
    ∃ n f, s.normalize ls ext filename e = .ok n ∧
      n.lines = ls.take sc.offset ++
        (let header := sc.header.lines.map (· ++ e.tail)
         let notices := (sc.window ls).filter fun l => s.lineKind sc.header l = .thirdParty
         match s.thirdParty.action with
         | .leave => header
         | .replace => header
         | .above => header ++ notices
         | .below => notices ++ header) ++
        (if (ls[sc.offset]?).any Text.isBlank then [] else [e.tail]) ++
        keptLines (sc.window ls) f ++ ls.drop sc.limit ∧
      (keptLines (sc.window ls) f).Sublist (sc.window ls) ∧
      f.length = (sc.window ls).length ∧
      ∀ i < f.length, s.Reason .kept (s.windowEntries sc ls) f i := by
  refine ⟨eq_window sc ls, _, s.windowFates sc ls, s.normalize_of_incorrect hg hi hc, ?_,
    keptLines_sublist _ _, ?_, ?_⟩
  · rw [s.rebuild_eq hi, inserted, s.notices_eq_filter hi]
    cases s.thirdParty.action <;> rfl
  · rw [windowFates, length_fates, length_windowEntries]
  · rw [windowFates, length_fates]
    exact s.reason_fates _ (Or.inl ⟨rfl, rfl⟩)

/-! ### A file that is rebuilt -/

/-- Settings under which notices of others go above the header. -/
def sample : Settings :=
  { Settings.default 2025 with
    copyright := { Copyright.default 2025 with holder := "ACME" }
    detection := { Detection.default with maxScanLines := 1 }
    thirdParty := ⟨.below, ["Oracle"]⟩ }

/-- A file with a notice of others and an old one of our own. -/
def sampleLines : List Text :=
  ["<!-- Oracle -->\r", "<!-- Copyright ACME 2019 -->\r", "text\r"]

def sampleScan : Scan :=
  ⟨⟨.html, "<!-- Copyright ACME 2025 -->", none⟩, 0, [.thirdParty, .ownStale]⟩

lemma inspect_sample : sample.inspect sampleLines ".md" "a.md" = .ok sampleScan := by
  have hthird : sample.lineKind sampleScan.header "<!-- Oracle -->\r" = .thirdParty := by
    have hours : sample.isOwnLine sampleScan.header.style "<!-- Oracle -->\r" = false := by cbv
    have hoccurs : sample.isThirdParty "<!-- Oracle -->\r" = true := by cbv
    rw [lineKind, hours, hoccurs]
    decide
  have hown : sample.lineKind sampleScan.header "<!-- Copyright ACME 2019 -->\r" = .ownStale := by
    cbv
  refine (sample.inspect_eq_ok_iff).mpr ⟨by cbv, by decide, ?_⟩
  rw [show sampleLines.drop sampleScan.offset = sampleLines from rfl, sampleLines,
    windowKinds_cons, windowKinds_cons, hthird, hown]
  decide

theorem sample_keeps_body :
    sample.isGenerated sampleLines = false ∧ sampleScan.isCorrect = false ∧
    ∃ n ks, sample.normalize sampleLines ".md" "a.md" .crlf = .ok n ∧
      n.lines = (["<!-- Oracle -->\r", "<!-- Copyright ACME 2025 -->\r", "\r"] : List Text) ++ ks ++
        sampleLines.drop 2 ∧
      ks.Sublist (sampleLines.take 2) := by
  have hg : sample.isGenerated sampleLines = false := rfl
  have hc : sampleScan.isCorrect = false := rfl
  obtain ⟨-, n, f, hn, hlines, hsub, -⟩ := normalize_keeps_body sample hg inspect_sample hc .crlf
  refine ⟨hg, hc, n, _, hn, hlines.trans ?_, hsub⟩
  rw [← sample.notices_eq_filter inspect_sample]
  rfl

end Letterhead.Settings
