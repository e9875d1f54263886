import Letterhead.Header.Issue
import Letterhead.Proofs.Header.Stability

/-!
What is reported of a file and what is done to it agree: nothing is reported just if nothing is
done, but for a header that is there and not at the top.

Both sides look at the same scan. What is reported is read off the kinds of the window; what is
done is decided by them too, since a file that lacks its header is never its own rebuilt form.
-/

namespace Letterhead

namespace Scan

variable {sc : Scan}

lemma first?_eq_none_iff {k : LineKind} : sc.first? k = none ↔ k ∉ sc.kinds := by
  simp only [first?, Option.map_eq_none_iff, List.findIdx?_eq_none_iff, decide_eq_false_iff_not]
  exact ⟨fun h hk => h k hk rfl, fun h x hx hxk => h (hxk ▸ hx)⟩

lemma isCorrect_iff : sc.isCorrect = true ↔
    .copyright ∈ sc.kinds ∧ (sc.header.license.isSome = true → .license ∈ sc.kinds) := by
  rw [isCorrect, Bool.and_eq_true, Bool.or_eq_true, List.contains_iff_mem]
  refine and_congr_right fun _ => ?_
  cases sc.header.license <;> simp

lemma hasMaterial_of_mem {k : LineKind} (hk : k ∈ sc.kinds) (hne : k ≠ .content) :
    sc.hasMaterial = true := by
  rw [hasMaterial, List.any_eq_true]
  exact ⟨k, hk, by simpa using hne⟩

lemma hasMaterial_of_hasStale (h : sc.hasStale = true) : sc.hasMaterial = true := by
  obtain ⟨k, hk, hs⟩ := List.any_eq_true.mp h
  exact hasMaterial_of_mem hk (by rintro rfl; exact absurd hs (by decide))

end Scan

namespace Settings

variable (s : Settings) {ls : List Text} {file ext filename : String} {e : LineEnd} {sc : Scan}

/-! ### What is reported -/

/-- The four ways to look at a file that is not at its end: no copyright line, one in the wrong
place, one without its license line, or a correct header. -/
lemma verdict_cases (hlim : sc.limit ≤ length) :
    (.copyright ∉ sc.kinds ∧ sc.hasStale = true ∧ s.verdict sc length = some .incorrect) ∨
    (.copyright ∉ sc.kinds ∧ s.verdict sc length = some .missing) ∨
    (.copyright ∈ sc.kinds ∧ s.detection.requireAtTop = true ∧
      s.verdict sc length = some .misplaced) ∨
    (.copyright ∈ sc.kinds ∧ sc.isCorrect = false ∧
      s.verdict sc length = some .missingLicense) ∨
    (sc.isCorrect = true ∧ s.verdict sc length = none) := by
  unfold Scan.limit at hlim
  unfold verdict
  by_cases hend : length ≤ sc.offset
  · -- nothing lies behind the offset
    rw [if_pos hend]
    have hk : sc.kinds = [] := List.eq_nil_of_length_eq_zero (by omega)
    exact Or.inr (Or.inl ⟨by simp [hk], rfl⟩)
  · rw [if_neg hend]
    cases hf : sc.first? .copyright with
    | none =>
      have hc := Scan.first?_eq_none_iff.mp hf
      cases hst : sc.hasStale with
      | true => exact Or.inl ⟨hc, rfl, by simp⟩
      | false => exact Or.inr (Or.inl ⟨hc, by simp⟩)
    | some i =>
      have hc : .copyright ∈ sc.kinds := by
        by_contra hno
        rw [Scan.first?_eq_none_iff.mpr hno] at hf
        simp at hf
      simp only
      split
      · next htop => exact Or.inr (Or.inr (Or.inl ⟨hc, htop.1, rfl⟩))
      · split
        · next hl =>
          refine Or.inr (Or.inr (Or.inr (Or.inl ⟨hc, ?_, rfl⟩)))
          rw [← Bool.not_eq_true, Scan.isCorrect_iff]
          exact fun h => Scan.first?_eq_none_iff.mp hl.2 (h.2 hl.1)
        · next hl =>
          refine Or.inr (Or.inr (Or.inr (Or.inr ⟨Scan.isCorrect_iff.mpr ⟨hc, fun h => ?_⟩, rfl⟩)))
          by_contra hno
          exact hl ⟨h, Scan.first?_eq_none_iff.mpr hno⟩

lemma checkLines_of_generated (hg : s.isGenerated ls = true) :
    s.checkLines file ls ext filename = .ok none := by
  rw [checkLines, if_pos hg]

lemma checkLines_of_ok (hg : s.isGenerated ls = false) (hi : s.inspect ls ext filename = .ok sc) :
    s.checkLines file ls ext filename =
      .ok ((s.verdict sc ls.length).map (Issue.mk file · "")) := by
  simp [checkLines, hg, hi]

lemma checkLines_of_reported {err : TemplateError} {m : String} (hg : s.isGenerated ls = false)
    (hi : s.inspect ls ext filename = .error err) (hm : err.message? = some m) :
    s.checkLines file ls ext filename = .ok (some ⟨file, .configError, m⟩) := by
  simp [checkLines, hg, hi, hm]

lemma checkLines_of_unreported {err : TemplateError} (hg : s.isGenerated ls = false)
    (hi : s.inspect ls ext filename = .error err) (hm : err.message? = none) :
    s.checkLines file ls ext filename = .error err := by
  simp [checkLines, hg, hi, hm]

lemma verdict_ne_configError (hlim : sc.limit ≤ length) :
    s.verdict sc length ≠ some .configError := by
  rcases s.verdict_cases hlim with ⟨-, -, h⟩ | ⟨-, h⟩ | ⟨-, -, h⟩ | ⟨-, -, h⟩ | ⟨-, h⟩ <;>
    simp [h]

/-! ### Report and repair -/

/-- What is reported of a file fits what becomes of it. -/
structure Agrees (s : Settings) (issue : Option IssueKind) (outcome : Outcome) : Prop where
  none_iff : s.detection.requireAtTop = false →
    (issue = none ↔ outcome = .unchanged ∨ outcome = .skipped)
  alone_of_none : issue = none → outcome = .unchanged ∨ outcome = .skipped
  /-- Of the files that are left alone, only one with its header in the wrong place is reported. -/
  none_of_alone : outcome = .unchanged ∨ outcome = .skipped →
    issue = none ∨ issue = some .misplaced
  missing_of_added : outcome = .added → issue = some .missing
  fixed_of_incorrect : issue = some .incorrect ∨ issue = some .missingLicense → outcome = .fixed

lemma agrees_of_correct (hc : sc.isCorrect = true) (hlim : sc.limit ≤ length) :
    s.Agrees (s.verdict sc length) .unchanged := by
  have hcopy := (Scan.isCorrect_iff.mp hc).1
  rcases s.verdict_cases hlim with ⟨h, -⟩ | ⟨h, -⟩ | ⟨-, htop, hv⟩ | ⟨-, h, -⟩ | ⟨-, hv⟩
  · exact absurd hcopy h
  · exact absurd hcopy h
  · rw [hv]
    exact ⟨by simp [htop], by simp, by simp, by simp, by simp⟩
  · rw [hc] at h
    simp at h
  · rw [hv]
    exact ⟨by simp, by simp, by simp, by simp, by simp⟩

lemma agrees_of_incorrect (hc : sc.isCorrect = false) (hlim : sc.limit ≤ length) :
    s.Agrees (s.verdict sc length) (if sc.hasMaterial then .fixed else .added) := by
  rcases s.verdict_cases hlim with ⟨-, hst, hv⟩ | ⟨h, hv⟩ | ⟨h, htop, hv⟩ | ⟨h, -, hv⟩ | ⟨h, -⟩
  · rw [hv, Scan.hasMaterial_of_hasStale hst]
    exact ⟨by simp, by simp, by simp, by simp, by simp⟩
  · rw [hv]
    split <;> exact ⟨by simp, by simp, by simp, by simp, by simp⟩
  · rw [hv, Scan.hasMaterial_of_mem h (by simp)]
    exact ⟨by simp, by simp, by simp, by simp, by simp⟩
  · rw [hv, Scan.hasMaterial_of_mem h (by simp)]
    exact ⟨by simp, by simp, by simp, by simp, by simp⟩
  · rw [hc] at h
    simp at h

/-- **Report and repair agree** on every file, if the lines of the header differ from each other
and from blank lines. A header that cannot be rendered is reported where the repair fails for it,
and ends both if it is not to be reported; otherwise what is reported fits what becomes of the
file, and no file without its header is its own rebuilt form. -/
theorem check_agrees (file : String) (ls : List Text) (ext filename : String) (e : LineEnd)
    (hd : ∀ h, Header.render s ext = .ok h → h.IsDistinct) :
    ((∃ err, s.normalize ls ext filename e = .error err ∧ err.message?.isSome = true) ↔
      ∃ i, s.checkLines file ls ext filename = .ok (some i) ∧ i.kind = .configError) ∧
    (∀ err, err.message? = none → (s.normalize ls ext filename e = .error err ↔
      s.checkLines file ls ext filename = .error err)) ∧
    (∀ n, s.normalize ls ext filename e = .ok n →
      ∃ r, s.checkLines file ls ext filename = .ok r ∧ s.Agrees (r.map Issue.kind) n.outcome) ∧
    ∀ sc, s.inspect ls ext filename = .ok sc → sc.isCorrect = false →
      s.rebuild sc ls e ≠ ls := by
  have hne : ∀ sc, s.inspect ls ext filename = .ok sc → sc.isCorrect = false →
      s.rebuild sc ls e ≠ ls := fun sc hi hc =>
    s.rebuild_ne hi (hd _ (s.inspect_eq_ok_iff.mp hi).1) hc e
  cases hg : s.isGenerated ls with
  | true =>
    rw [s.normalize_of_generated hg, s.checkLines_of_generated hg]
    refine ⟨by simp, by simp, ?_, hne⟩
    rintro n ⟨⟩
    exact ⟨none, rfl, by simp, by simp, by simp, by simp, by simp⟩
  | false =>
    cases hi : s.inspect ls ext filename with
    | error err =>
      rw [s.normalize_of_error hg hi]
      cases hm : err.message? with
      | some m =>
        rw [s.checkLines_of_reported hg hi hm]
        refine ⟨by simp [hm], ?_, by simp, by simp⟩
        intro err' hm'
        refine ⟨?_, by simp⟩
        rintro ⟨⟩
        rw [hm] at hm'
        simp at hm'
      | none =>
        rw [s.checkLines_of_unreported hg hi hm]
        exact ⟨by simp [hm], by simp, by simp, by simp⟩
    | ok sc =>
      have hlim := s.limit_le_of_inspect hi
      have hkind := s.verdict_ne_configError hlim
      have hmap : ((s.verdict sc ls.length).map (Issue.mk file · "")).map Issue.kind =
          s.verdict sc ls.length := by
        cases s.verdict sc ls.length <;> rfl
      rw [s.checkLines_of_ok hg hi]
      cases hc : sc.isCorrect with
      | true =>
        rw [s.normalize_of_correct hg hi hc]
        refine ⟨?_, by simp, ?_, by simp [hc]⟩
        · simpa using hkind
        · rintro n ⟨⟩
          exact ⟨_, rfl, by rw [hmap]; exact s.agrees_of_correct hc hlim⟩
      | false =>
        rw [s.normalize_of_incorrect hg hi hc, if_neg (hne sc hi hc)]
        refine ⟨?_, by simp, ?_, hi ▸ hne⟩
        · simpa using hkind
        · rintro n ⟨⟩
          exact ⟨_, rfl, by rw [hmap]; exact s.agrees_of_incorrect hc hlim⟩

theorem sample_agrees : ∃ n r, sample.normalize sampleLines ".md" "a.md" .crlf = .ok n ∧
    sample.checkLines "a.md" sampleLines ".md" "a.md" = .ok r ∧
    sample.Agrees (r.map Issue.kind) n.outcome := by
  obtain ⟨-, -, hok, -⟩ := check_agrees sample "a.md" sampleLines ".md" "a.md" .crlf
    fun h hr => render_sample hr ▸ isDistinct_sample
  have hn := sample.normalize_of_incorrect (e := .crlf) (by decide) inspect_sample (by decide)
  obtain ⟨r, hr, ha⟩ := hok _ hn
  exact ⟨_, r, hn, hr, ha⟩

end Settings

end Letterhead
