import Letterhead.Proofs.Header.Rebuild

/-!
Text below the window has no say in the header.

A window that is not cut by the end of the file ends where its size is used up. Its size is told by
the lines that it holds, so it ends there whatever follows, and neither a comment nor a notice nor a
blank line is looked for behind it. What stands below is therefore copied as it is, below lines that
do not depend on it.
-/

namespace Letterhead.Settings

variable (s : Settings)

/-! ### The end of the window -/

/-- How many of the lines of these kinds make a window grow. -/
def growth (s : Settings) (ks : List LineKind) : Nat :=
  if s.thirdParty.action = .below then ks.count .thirdParty else 0

lemma growth_cons (k : LineKind) (ks : List LineKind) :
    s.growth (k :: ks) =
      (if s.thirdParty.action = .below ∧ k = .thirdParty then 1 else 0) + s.growth ks := by
  unfold growth
  by_cases hb : s.thirdParty.action = .below <;> by_cases hk : k = .thirdParty <;>
    simp [hb, hk, Nat.add_comm]

/-- A window that holds some lines looks at what follows them with its size grown by their
notices. -/
lemma windowKinds_append_of_le {h : Header} {seen notices : Nat} {ls rest : List Text}
    (hle : ls.length ≤ (s.windowKinds h seen notices (ls ++ rest)).length) (rest' : List Text) :
    s.windowKinds h seen notices (ls ++ rest') =
      ls.map (s.lineKind h) ++ s.windowKinds h (seen + ls.length)
        (notices + s.growth (ls.map (s.lineKind h))) rest' := by
  induction ls generalizing seen notices with
  | nil => simp [growth]
  | cons l ls ih =>
    rw [List.cons_append, windowKinds_cons] at hle
    rw [List.cons_append, windowKinds_cons]
    split at hle
    · next hroom =>
      simp only [List.length_cons, Nat.add_le_add_iff_right] at hle
      rw [if_pos hroom, ih hle, List.map_cons, List.cons_append, growth_cons, List.length_cons]
      congr 3 <;> [skip; split] <;> omega
    · simp at hle

lemma windowKinds_of_full {h : Header} {seen notices : Nat}
    (hscan : 0 < s.detection.maxScanLines)
    (hfull : max s.detection.maxScanLines (h.lines.length + notices) ≤ seen) (rest : List Text) :
    s.windowKinds h seen notices rest = [] := by
  cases rest with
  | nil => rfl
  | cons l rest =>
    rw [windowKinds_cons, if_neg]
    rw [windowSize, if_neg (by omega), Option.all_some, decide_eq_true_eq]
    omega

/-- **The window does not depend on what follows it**, if it is as large as its notices ask for. -/
lemma windowKinds_below {h : Header} {ls : List Text} (rest : List Text)
    (hscan : 0 < s.detection.maxScanLines)
    (hlen : (s.windowKinds h 0 0 (ls ++ rest)).length = ls.length)
    (hfull : max s.detection.maxScanLines
      (h.lines.length + s.growth (s.windowKinds h 0 0 (ls ++ rest))) ≤ ls.length)
    (rest' : List Text) :
    s.windowKinds h 0 0 (ls ++ rest') = ls.map (s.lineKind h) := by
  have hkinds : s.windowKinds h 0 0 (ls ++ rest) = ls.map (s.lineKind h) := by
    have hmap := s.windowKinds_eq_map h 0 0 (ls ++ rest)
    rwa [hlen, List.take_left] at hmap
  rw [hkinds] at hfull
  rw [s.windowKinds_append_of_le hlen.ge, s.windowKinds_of_full hscan (by simpa using hfull),
    List.append_nil]

/-! ### The rebuilt file -/

section Rebuild

variable {sc : Scan} {ls : List Text}
  -- the window ends with these lines
  (hlimit : sc.limit = ls.length)

include hlimit

lemma length_drop_offset : (ls.drop sc.offset).length = sc.kinds.length := by
  rw [List.length_drop, ← hlimit, Scan.limit, Nat.add_sub_cancel_left]

lemma zip_kinds_append (rest : List Text) :
    ((ls ++ rest).drop sc.offset).zip sc.kinds = (ls.drop sc.offset).zip sc.kinds := by
  have ho : sc.offset ≤ ls.length := hlimit ▸ Nat.le_add_right _ _
  rw [List.drop_append_of_le_length ho]
  conv_lhs => rw [← List.append_nil sc.kinds]
  rw [List.zip_append (length_drop_offset hlimit), List.zip_nil_right, List.append_nil]

lemma rebuild_append (hwindow : sc.kinds ≠ []) (rest : List Text) (e : LineEnd) :
    s.rebuild sc (ls ++ rest) e = s.rebuild sc ls e ++ rest := by
  have ho : sc.offset < ls.length := by
    have := List.length_pos_iff.mpr hwindow
    rw [← hlimit, Scan.limit]
    omega
  have hinserted : s.inserted sc (ls ++ rest) e = s.inserted sc ls e := by
    unfold inserted Scan.notices
    rw [zip_kinds_append hlimit]
  have hseparator : separator sc (ls ++ rest) e = separator sc ls e := by
    unfold separator
    rw [List.getElem?_append_left ho]
  rw [rebuild, rebuild, hinserted, hseparator, zip_kinds_append hlimit,
    List.take_append_of_le_length ho.le, hlimit, List.drop_left, List.drop_length, List.append_nil]

end Rebuild

/-! ### The normal form -/

variable {s} {ls rest rest' : List Text} {ext filename : String} {e : LineEnd} {sc : Scan}

lemma inspect_append (hscan : 0 < s.detection.maxScanLines)
    (hi : s.inspect (ls ++ rest) ext filename = .ok sc) (hlimit : sc.limit = ls.length)
    (hfull : sc.limit = sc.offset + max s.detection.maxScanLines
      (sc.header.lines.length + s.growth sc.kinds))
    (ho : Placement.offset s (ls ++ rest') filename = sc.offset) :
    s.inspect (ls ++ rest') ext filename = .ok sc := by
  obtain ⟨hrender, -, hkinds⟩ := s.inspect_eq_ok_iff.mp hi
  have hdrop : ∀ r, (ls ++ r).drop sc.offset = ls.drop sc.offset ++ r := fun r =>
    List.drop_append_of_le_length (hlimit ▸ Nat.le_add_right _ _)
  rw [hdrop] at hkinds
  refine s.inspect_eq_ok_iff.mpr ⟨hrender, ho.symm, ?_⟩
  have hsame : ∀ r, s.windowKinds sc.header 0 0 (ls.drop sc.offset ++ r) =
      (ls.drop sc.offset).map (s.lineKind sc.header) := by
    refine s.windowKinds_below rest hscan ?_ ?_
    · rw [← hkinds, length_drop_offset hlimit]
    · rw [← hkinds, length_drop_offset hlimit]
      rw [Scan.limit] at hfull
      omega
  rw [hdrop, hsame, hkinds, hsame]

/-- **Text below the window has no say in the header.** Let the window of a file hold as many lines
as its bound, the header and the notices that go above it ask for, so that it is not cut by the end
of the file. Then whatever stands below it, as long as that neither moves the offset nor makes the
file count as generated: the same is found, the same is done, and what stands below is copied under
the same lines. -/
theorem normalize_below_window (hscan : 0 < s.detection.maxScanLines)
    (hi : s.inspect (ls ++ rest) ext filename = .ok sc) (hlimit : sc.limit = ls.length)
    (hfull : sc.limit = sc.offset + max s.detection.maxScanLines
      (sc.header.lines.length +
        if s.thirdParty.action = .below then sc.kinds.count .thirdParty else 0))
    (ho : Placement.offset s (ls ++ rest') filename = sc.offset)
    (hg : s.isGenerated (ls ++ rest) = false) (hg' : s.isGenerated (ls ++ rest') = false) :
    s.inspect (ls ++ rest') ext filename = .ok sc ∧
    ∃ new outcome,
      s.normalize (ls ++ rest) ext filename e = .ok ⟨new ++ rest, outcome, some sc⟩ ∧
      s.normalize (ls ++ rest') ext filename e = .ok ⟨new ++ rest', outcome, some sc⟩ := by
  have hi' := inspect_append hscan hi hlimit hfull ho
  refine ⟨hi', ?_⟩
  cases hc : sc.isCorrect with
  | true =>
    exact ⟨ls, .unchanged, s.normalize_of_correct hg hi hc, s.normalize_of_correct hg' hi' hc⟩
  | false =>
    have hwindow : sc.kinds ≠ [] := by
      rintro hnil
      rw [Scan.limit, hnil, List.length_nil] at hfull
      omega
    have happend := s.rebuild_append hlimit hwindow
    -- the rebuilt file is the file itself just if its lines through the window are
    have hsame : ∀ r, s.rebuild sc (ls ++ r) e = ls ++ r ↔ s.rebuild sc ls e = ls := fun r => by
      rw [happend, List.append_left_inj]
    refine ⟨s.rebuild sc ls e, if s.rebuild sc ls e = ls then .unchanged
      else if sc.hasMaterial then .fixed else .added, ?_, ?_⟩
    · rw [s.normalize_of_incorrect hg hi hc, happend]
      simp only [← happend, hsame]
    · rw [s.normalize_of_incorrect hg' hi' hc, happend]
      simp only [← happend, hsame]

/-- Other lines below the window of the file with two notices, one of them our own. -/
def sampleEnd : List Text := ["<!-- Copyright ACME 2018 -->", "end"]

theorem sample_below_window :
    sample.inspect (sampleLines.take 2 ++ sampleEnd) ".md" "a.md" = .ok sampleScan ∧
    ∃ new outcome,
      sample.normalize (sampleLines.take 2 ++ sampleLines.drop 2) ".md" "a.md" .crlf =
        .ok ⟨new ++ sampleLines.drop 2, outcome, some sampleScan⟩ ∧
      sample.normalize (sampleLines.take 2 ++ sampleEnd) ".md" "a.md" .crlf =
        .ok ⟨new ++ sampleEnd, outcome, some sampleScan⟩ := by
  have hi : sample.inspect (sampleLines.take 2 ++ sampleLines.drop 2) ".md" "a.md" =
      .ok sampleScan := by
    rw [List.take_append_drop]
    exact inspect_sample
  exact normalize_below_window (by decide) hi (by decide) (by decide) (by decide) rfl rfl

end Letterhead.Settings
