import Letterhead.Proofs.Header.Notices
import Letterhead.Proofs.Header.Seam
import Letterhead.Proofs.Header.Stability
import Letterhead.Proofs.Text.Uniform

/-!
Line ends of a normal form.

All that comes in ends as most lines of the file do, so a file without carriage returns gets none.
In a file that has them before its line feeds and nowhere else, only a last line that is not ended
has none. Such a file is of one style again just if that line is still the last one.
-/

namespace Letterhead

lemma keptLines_concat {ls : List Text} {f : List Fate} (hlen : f.length = ls.length) (l : Text)
    (g : Fate) : keptLines (ls ++ [l]) (f ++ [g]) =
      keptLines ls f ++ if g = .kept then [l] else [] := by
  unfold keptLines
  rw [List.zip_append hlen.symm, List.filterMap_append]
  by_cases hg : g = .kept <;> simp [hg]

/-- A last line that stands nowhere else is the last one that is kept, if it is kept at all. -/
lemma getLast?_keptLines_eq_iff {ls : List Text} {l : Text} {f : List Fate}
    (hlen : f.length = (ls ++ [l]).length) (hl : l ∉ ls) :
    (keptLines (ls ++ [l]) f).getLast? = some l ↔ f.getLast? = some .kept := by
  have hne : f ≠ [] := List.ne_nil_of_length_pos (by rw [hlen]; simp)
  obtain ⟨f, g, rfl⟩ : ∃ f' g, f = f' ++ [g] := ⟨_, _, (List.dropLast_concat_getLast hne).symm⟩
  rw [keptLines_concat (by simpa using hlen), List.getLast?_concat]
  by_cases hg : g = .kept
  · simp [hg]
  · rw [if_neg hg, List.append_nil]
    refine iff_of_false (fun h => hl ?_) (by simpa using hg)
    exact (keptLines_sublist ls f).subset (List.mem_of_getLast? h)

namespace Settings

variable (s : Settings) {ls : List Text} {ext filename : String} {e : LineEnd} {sc : Scan}

/-! ### A line of the file in its rebuilt form -/

lemma count_notices_add_le (hi : s.inspect ls ext filename = .ok sc)
    (hr : s.removes .thirdParty = true) (l : Text) :
    (sc.notices ls).count l + (keptLines (sc.window ls) (s.windowFates sc ls)).count l ≤
      (sc.window ls).count l := by
  rw [s.notices_eq_filter hi]
  by_cases hk : s.lineKind sc.header l = .thirdParty
  · have hnone : l ∉ keptLines (sc.window ls) (s.windowFates sc ls) := fun hm => by
      have hnotice : l ∈ s.noticesIn sc (keptLines (sc.window ls) (s.windowFates sc ls)) :=
        List.mem_filter.mpr ⟨hm, by simpa using hk⟩
      rw [s.noticesIn_keptLines_eq_nil sc ls hr] at hnotice
      exact List.not_mem_nil hnotice
    rw [List.count_eq_zero.mpr hnone, Nat.add_zero]
    exact List.filter_sublist.count_le l
  · have hnone : l ∉ (sc.window ls).filter fun l => s.lineKind sc.header l = .thirdParty := by
      simp [hk]
    rw [List.count_eq_zero.mpr hnone, Nat.zero_add]
    exact (keptLines_sublist _ _).count_le l

lemma count_inserted_add_le (hi : s.inspect ls ext filename = .ok sc) {l : Text}
    (hheader : l ∉ headerLines sc e) :
    (s.inserted sc ls e).count l + (keptLines (sc.window ls) (s.windowFates sc ls)).count l ≤
      (sc.window ls).count l := by
  have hnew : (headerLines sc e).count l = 0 := List.count_eq_zero.mpr hheader
  have hkept : (keptLines (sc.window ls) (s.windowFates sc ls)).count l ≤
      (sc.window ls).count l := (keptLines_sublist _ _).count_le l
  rw [headerLines] at hnew
  cases ha : s.thirdParty.action <;>
    simp only [inserted, ha, List.count_append, hnew, Nat.zero_add, Nat.add_zero]
  · exact hkept
  · exact s.count_notices_add_le hi (by simp [removes, ha]) l
  · exact s.count_notices_add_le hi (by simp [removes, ha]) l
  · exact hkept

lemma count_rebuild_le (hi : s.inspect ls ext filename = .ok sc) {l : Text}
    (hheader : l ∉ headerLines sc e) (hempty : l ≠ e.tail) :
    (s.rebuild sc ls e).count l ≤ ls.count l := by
  have hseparator : (separator sc ls e).count l = 0 := by
    unfold separator
    split <;> simp [Ne.symm hempty]
  have hinserted := s.count_inserted_add_le hi hheader
  calc (s.rebuild sc ls e).count l
      = (ls.take sc.offset).count l + ((s.inserted sc ls e).count l +
          (keptLines (sc.window ls) (s.windowFates sc ls)).count l) +
          (ls.drop sc.limit).count l := by
        rw [s.rebuild_eq hi]
        simp only [List.count_append, hseparator]
        omega
    _ ≤ (ls.take sc.offset ++ sc.window ls ++ ls.drop sc.limit).count l := by
        simp only [List.count_append]
        omega
    _ = ls.count l := by rw [← eq_window]

/-- The last line of the file is the last line of the rebuilt file. -/
inductive StaysLast (sc : Scan) (ls : List Text) : Prop where
  /-- It lies behind the window. -/
  | below (h : sc.limit < ls.length)
  | kept (h : (s.windowFates sc ls).getLast? = some .kept)
  /-- It goes below the header with other notices, and nothing comes behind these. -/
  | notice (ha : s.thirdParty.action = .above) (hl : (sc.notices ls).getLast? = ls.getLast?)
    (hb : (ls[sc.offset]?).any Text.isBlank = true)
    (hk : keptLines (sc.window ls) (s.windowFates sc ls) = [])

lemma inserted_ne_nil (sc : Scan) (ls : List Text) (e : LineEnd) : s.inserted sc ls e ≠ [] := by
  obtain ⟨ts, hts⟩ := s.inserted_eq sc ls e
  simp [hts, headerLines_ne_nil]

lemma getLast?_inserted_eq_iff {l : Text} (hheader : l ∉ headerLines sc e) :
    (s.inserted sc ls e).getLast? = some l ↔
      s.thirdParty.action = .above ∧ (sc.notices ls).getLast? = some l := by
  have hne : (headerLines sc e).getLast? ≠ some l := fun h => hheader (List.mem_of_getLast? h)
  have hsome : ∀ ts : List Text, (ts ++ headerLines sc e).getLast? ≠ some l := by
    intro ts h
    rw [List.getLast?_append_of_ne_nil _ (headerLines_ne_nil sc e)] at h
    exact hne h
  unfold inserted
  rw [← headerLines]
  cases s.thirdParty.action with
  | leave => simpa using hne
  | replace => simpa using hne
  | below => simpa using hsome _
  | above =>
    rcases List.eq_nil_or_concat (sc.notices ls) with hn | ⟨ts, x, hn⟩
    · simpa [hn] using hne
    · simp [hn]

lemma getLast?_keptLines_window {init : List Text} {l : Text}
    (hend : (init ++ [l]).drop sc.limit = []) (hl : l ∉ init) :
    (keptLines (sc.window (init ++ [l])) (s.windowFates sc (init ++ [l]))).getLast? = some l ↔
      (s.windowFates sc (init ++ [l])).getLast? = some .kept := by
  have hfates : (s.windowFates sc (init ++ [l])).length = (sc.window (init ++ [l])).length := by
    rw [windowFates, length_fates, length_windowEntries]
  have hfile := eq_window sc (init ++ [l])
  rw [hend, List.append_nil] at hfile
  rcases List.eq_nil_or_concat (sc.window (init ++ [l])) with hw | ⟨w, x, hw⟩
  · have hf : s.windowFates sc (init ++ [l]) = [] :=
      List.length_eq_zero_iff.mp (by rw [hfates, hw]; rfl)
    simp [hw, hf]
  · rw [List.concat_eq_append] at hw
    rw [hw, ← List.append_assoc] at hfile
    obtain ⟨hinit, hx⟩ := List.append_inj' hfile rfl
    obtain rfl : l = x := by simpa using hx
    have hnot : l ∉ w := fun hm => hl (hinit ▸ List.mem_append_right _ hm)
    rw [hw] at hfates ⊢
    exact getLast?_keptLines_eq_iff hfates hnot

lemma getLast?_rebuild_eq_iff {init : List Text} {l : Text}
    (hi : s.inspect (init ++ [l]) ext filename = .ok sc) (hl : l ∉ init)
    (hheader : l ∉ headerLines sc e) (hempty : l ≠ e.tail) :
    (s.rebuild sc (init ++ [l]) e).getLast? = some l ↔ s.StaysLast sc (init ++ [l]) := by
  set ls := init ++ [l] with hls
  have hlast : ls.getLast? = some l := by simp [hls]
  rw [s.rebuild_eq hi]
  rcases Nat.lt_or_ge sc.limit ls.length with hlim | hlim
  · have hdrop : (ls.drop sc.limit).getLast? = some l := by
      rw [List.getLast?_drop, if_neg (by omega), hlast]
    exact iff_of_true (by rw [List.getLast?_append, hdrop, Option.some_or]) (.below hlim)
  · have hdrop : ls.drop sc.limit = [] := List.drop_eq_nil_of_le hlim
    have hkept := s.getLast?_keptLines_window hdrop hl
    rw [hdrop, List.append_nil]
    constructor
    · intro h
      rcases hk : keptLines (sc.window ls) (s.windowFates sc ls) with _ | ⟨k, ks⟩
      · rw [hk, List.append_nil] at h
        by_cases hb : (ls[sc.offset]?).any Text.isBlank = true
        · rw [separator, if_pos hb, List.append_nil,
            List.getLast?_append_of_ne_nil _ (s.inserted_ne_nil sc ls e),
            s.getLast?_inserted_eq_iff hheader] at h
          exact .notice h.1 (h.2.trans hlast.symm) hb hk
        · rw [separator, if_neg hb, List.getLast?_concat] at h
          exact absurd (Option.some.inj h).symm hempty
      · rw [List.getLast?_append_of_ne_nil _ (by simp [hk])] at h
        exact .kept (hkept.mp h)
    · rintro (h | h | ⟨ha, hn, hb, hk⟩)
      · omega
      · rw [List.getLast?_append, hkept.mpr h, Option.some_or]
      · have hins := (s.getLast?_inserted_eq_iff hheader).mpr ⟨ha, hn.trans hlast⟩
        rw [hk, separator, if_pos hb, List.append_nil, List.append_nil, List.getLast?_append, hins,
          Option.some_or]

/-! ### Line ends of a normal form -/

lemma normalizeText_cases {h : Header} (hr : Header.render s ext = .ok h) (t : Text)
    (filename : String) :
    (∃ n, s.normalizeText t ext filename = .ok (t, n) ∧ n.outcome.changes = false) ∨
      ∃ n sc, s.inspect (Lines.ofText t).all ext filename = .ok sc ∧
        s.normalizeText t ext filename =
          .ok (Lines.join (s.rebuild sc (Lines.ofText t).all (Lines.ofText t).lineEnd)
            (Lines.ofText t).ended, n) ∧
        n.outcome.changes = true ∧ n.scan = some sc := by
  obtain ⟨n, hn⟩ : ∃ n, s.normalize (Lines.ofText t).all ext filename (Lines.ofText t).lineEnd =
      .ok n :=
    s.exists_normalize_of_inspect (s.inspect_of_render hr) _
  have htext : s.normalizeText t ext filename =
      .ok (if n.outcome.changes then Lines.join n.lines (Lines.ofText t).ended else t, n) := by
    simp [normalizeText, hn, bind, Except.bind, pure, Except.pure]
  cases hch : n.outcome.changes with
  | false => exact Or.inl ⟨n, by rw [htext, hch]; rfl, hch⟩
  | true =>
    obtain ⟨sc, -, hi, -, hlines, hscan, -⟩ := s.normalize_changes hn hch
    exact Or.inr ⟨n, sc, hi, by rw [htext, hch, hlines]; rfl, hch, hscan⟩

section

variable (hcr : ∀ l ∈ sc.header.copyright :: sc.header.license.toList, CodePoint.ofChar '\r' ∉ l)

include hcr

lemma rebuild_return_not_mem (hi : s.inspect ls ext filename = .ok sc)
    (hls : ∀ l ∈ ls, CodePoint.ofChar '\r' ∉ l) :
    ∀ l ∈ s.rebuild sc ls .lf, CodePoint.ofChar '\r' ∉ l := by
  intro l hl
  rcases s.mem_rebuild hi hl with h | h | rfl
  · exact hls l h
  · obtain ⟨x, hx, rfl⟩ := List.mem_map.mp h
    have hx := Header.forall_mem_lines hcr (by decide) (by decide) x hx
    simpa [LineEnd.tail] using hx
  · decide

lemma endsInReturn_of_mem_rebuild (hi : s.inspect ls ext filename = .ok sc) {l : Text}
    (hl : l ∈ s.rebuild sc ls .crlf) : l ∈ ls ∨ Lines.EndsInReturn l := by
  rcases s.mem_rebuild hi hl with h | h | rfl
  · exact Or.inl h
  · obtain ⟨x, hx, rfl⟩ := List.mem_map.mp h
    exact Or.inr ⟨x, Header.forall_mem_lines hcr (by decide) (by decide) x hx, rfl⟩
  · exact Or.inr ⟨[], by simp, rfl⟩

lemma isPaired_join_rebuild_ended (hi : s.inspect ls ext filename = .ok sc)
    (hs : sc.header.IsSingleLine) (hne : ls ≠ []) (hls : ∀ l ∈ ls, CodePoint.ofChar '\n' ∉ l)
    (h : Lines.IsPaired (Lines.join ls true)) :
    Lines.IsPaired (Lines.join (s.rebuild sc ls .crlf) true) := by
  rw [Lines.isPaired_join_ended hne hls] at h
  rw [Lines.isPaired_join_ended (s.rebuild_ne_nil sc ls .crlf)
    (s.rebuild_not_mem hi hls hs.not_mem_lines)]
  intro l hl
  rcases s.endsInReturn_of_mem_rebuild hcr hi hl with hl | hret
  · exact h l hl
  · exact hret

lemma isPaired_join_rebuild_open (hi : s.inspect ls ext filename = .ok sc)
    (hs : sc.header.IsSingleLine) (hne : ls ≠ []) (hls : ∀ l ∈ ls, CodePoint.ofChar '\n' ∉ l)
    (h : Lines.IsPaired (Lines.join ls false)) :
    Lines.IsPaired (Lines.join (s.rebuild sc ls .crlf) false) ↔ s.StaysLast sc ls := by
  obtain ⟨init, l, rfl⟩ : ∃ init l, ls = init ++ [l] :=
    ⟨_, _, (List.dropLast_concat_getLast hne).symm⟩
  obtain ⟨hinit, hl⟩ := (Lines.isPaired_join_open hls).mp h
  -- the last line is the only one of all these lines without a carriage return
  have hlast : l ∉ init := fun hm => hl (hinit l hm).mem
  have hheader : l ∉ headerLines sc .crlf := by
    intro hm
    obtain ⟨x, -, rfl⟩ := List.mem_map.mp hm
    exact hl (by simp [LineEnd.tail, Text.ofChars])
  have hempty : l ≠ LineEnd.crlf.tail := by
    rintro rfl
    exact hl (by decide)
  have hcount := s.count_rebuild_le hi hheader hempty
  rw [List.count_append, List.count_eq_zero.mpr hlast, List.count_singleton_self] at hcount
  rw [Lines.isPaired_join_iff_getLast? (s.rebuild_ne_nil sc _ .crlf)
    (s.rebuild_not_mem hi hls hs.not_mem_lines) ?_ hl hcount,
    s.getLast?_rebuild_eq_iff hi hlast hheader hempty]
  intro x hx
  rcases s.endsInReturn_of_mem_rebuild hcr hi hx with hx | hret
  · rcases List.mem_append.mp hx with hx | hx
    · exact Or.inr (hinit x hx)
    · exact Or.inl (List.mem_singleton.mp hx)
  · exact Or.inr hret

end

/-- **Normal forms are of one style**, as the text was. A text without carriage returns gets none.
If a text has them before its line feeds and nowhere else, so has its normal form, but for one
case: the last line is not ended, and something else comes to stand behind it or it goes. -/
theorem normalizeText_keeps_line_ends {h : Header} (hr : Header.render s ext = .ok h)
    (hs : h.IsSingleLine)
    (hcr : ∀ l ∈ h.copyright :: h.license.toList, CodePoint.ofChar '\r' ∉ l) (t : Text)
    (filename : String) :
    ∃ t' n, s.normalizeText t ext filename = .ok (t', n) ∧
      (CodePoint.ofChar '\r' ∉ t → CodePoint.ofChar '\r' ∉ t') ∧
      (CodePoint.ofChar '\n' ∈ t → Lines.IsPaired t →
        (Lines.IsPaired t' ↔ Lines.isEnded t = true ∨ n.outcome.changes = false ∨
          ∀ sc ∈ n.scan, s.StaysLast sc (Lines.ofText t).all)) := by
  rcases s.normalizeText_cases hr t filename with ⟨n, hn, hch⟩ | ⟨n, sc, hi, hn, hch, hscan⟩
  · exact ⟨t, n, hn, id, fun _ hp => iff_of_true hp (Or.inr (Or.inl hch))⟩
  obtain rfl : h = sc.header := by
    have := (s.inspect_eq_ok_iff.mp hi).1
    exact Except.ok.inj (hr.symm.trans this)
  have hne : (Lines.ofText t).all ≠ [] := Text.cutAt_ne_nil _ _
  have hls : ∀ l ∈ (Lines.ofText t).all, CodePoint.ofChar '\n' ∉ l := fun l hl =>
    Lines.not_mem_of_mem_ofText hl
  have htext : Lines.join (Lines.ofText t).all (Lines.ofText t).ended = t := Lines.toText_ofText t
  have hreturn : CodePoint.ofChar '\r' ≠ CodePoint.ofChar '\n' := by decide
  refine ⟨_, n, hn, fun ht => ?_, fun hnl hp => ?_⟩
  · have hlf : (Lines.ofText t).lineEnd = .lf := Lines.dominant_of_return_not_mem ht
    rw [hlf, Lines.mem_join hreturn]
    rintro ⟨l, hl, hm⟩
    refine s.rebuild_return_not_mem hcr hi (fun l hl hm => ht ?_) l hl hm
    rw [← htext, Lines.mem_join hreturn]
    exact ⟨l, hl, hm⟩
  · have hcrlf : (Lines.ofText t).lineEnd = .crlf := Lines.dominant_of_isPaired hp hnl
    have hended : (Lines.ofText t).ended = Lines.isEnded t := rfl
    rw [hended] at htext ⊢
    rw [hcrlf, hch, hscan]
    rw [← htext] at hp
    cases he : Lines.isEnded t with
    | true =>
      rw [he] at hp
      exact iff_of_true (s.isPaired_join_rebuild_ended hcr hi hs hne hls hp) (Or.inl rfl)
    | false =>
      rw [he] at hp
      simpa using s.isPaired_join_rebuild_open hcr hi hs hne hls hp

/-! ### A last line that is not ended -/

def goHeader : Header := ⟨.line "//", "// Copyright ACME 2025", none⟩

lemma render_ours_go : Header.render ours ".go" = .ok goHeader := by cbv

/-- A header that is out of date, above a line of code or below it; the last line is not ended. -/
def headedText : Text := "// Copyright ACME 2019\r\npackage a"
def footedText : Text := "package a\r\n// Copyright ACME 2019"

def headedLines : List Text := ["// Copyright ACME 2019\r", "package a"]
def footedLines : List Text := ["package a\r", "// Copyright ACME 2019"]

lemma ofText_headedText : Lines.ofText headedText = ⟨headedLines, .crlf, false⟩ := by cbv
lemma ofText_footedText : Lines.ofText footedText = ⟨footedLines, .crlf, false⟩ := by cbv

lemma isPaired_headedText : Lines.IsPaired headedText := by
  have hopen := @Lines.isPaired_join_open ["// Copyright ACME 2019\r"] "package a" (by decide)
  refine hopen.mpr ⟨fun x hx => ?_, by decide⟩
  obtain rfl := List.mem_singleton.mp hx
  exact ⟨"// Copyright ACME 2019", by decide, rfl⟩

lemma isPaired_footedText : Lines.IsPaired footedText := by
  have hopen := @Lines.isPaired_join_open ["package a\r"] "// Copyright ACME 2019" (by decide)
  refine hopen.mpr ⟨fun x hx => ?_, by decide⟩
  obtain rfl := List.mem_singleton.mp hx
  exact ⟨"package a", by decide, rfl⟩

def headedScan : Scan := ⟨goHeader, 0, [.ownStale, .content]⟩
def footedScan : Scan := ⟨goHeader, 0, [.content, .ownStale]⟩

lemma inspect_headed : ours.inspect headedLines ".go" "a.go" = .ok headedScan := by
  have hown : ours.lineKind goHeader "// Copyright ACME 2019\r" = .ownStale := by cbv
  refine ours.inspect_eq_ok_iff.mpr ⟨render_ours_go, by decide, ?_⟩
  rw [show headedLines.drop headedScan.offset = headedLines from rfl, headedLines,
    show headedScan.header = goHeader from rfl, windowKinds_cons, hown]
  decide

lemma inspect_footed : ours.inspect footedLines ".go" "a.go" = .ok footedScan := by
  have hown : ours.lineKind goHeader "// Copyright ACME 2019" = .ownStale := by cbv
  refine ours.inspect_eq_ok_iff.mpr ⟨render_ours_go, by decide, ?_⟩
  rw [show footedLines.drop footedScan.offset = footedLines from rfl, footedLines,
    show footedScan.header = goHeader from rfl, windowKinds_cons, windowKinds_cons, hown]
  decide

def refootedLines : List Text := ["// Copyright ACME 2025\r", "\r", "package a\r"]
def refootedText : Text := "// Copyright ACME 2025\r\n\r\npackage a\r"

lemma rebuild_footed : ours.rebuild footedScan footedLines .crlf = refootedLines := by decide

theorem headed_keeps_line_ends :
    goHeader.IsSingleLine ∧
    (∀ l ∈ goHeader.copyright :: goHeader.license.toList, CodePoint.ofChar '\r' ∉ l) ∧
    CodePoint.ofChar '\n' ∈ headedText ∧ Lines.IsPaired headedText ∧
    ∃ t' n, ours.normalizeText headedText ".go" "a.go" = .ok (t', n) ∧ Lines.IsPaired t' := by
  have hs : goHeader.IsSingleLine := by decide
  have hcr : ∀ l ∈ goHeader.copyright :: goHeader.license.toList, CodePoint.ofChar '\r' ∉ l := by
    decide
  obtain ⟨t', n, hn, -, hp⟩ :=
    normalizeText_keeps_line_ends ours render_ours_go hs hcr headedText "a.go"
  have hp := hp (by decide) isPaired_headedText
  refine ⟨hs, hcr, by decide, isPaired_headedText, t', n, hn, hp.mpr ?_⟩
  rcases ours.normalizeText_cases render_ours_go headedText "a.go" with
    ⟨n', hn', hch⟩ | ⟨n', sc, hi, hn', -, hscan⟩
  · obtain ⟨-, rfl⟩ := Prod.mk.inj (Except.ok.inj (hn.symm.trans hn'))
    exact Or.inr (Or.inl hch)
  · obtain ⟨-, rfl⟩ := Prod.mk.inj (Except.ok.inj (hn.symm.trans hn'))
    rw [ofText_headedText] at hi ⊢
    obtain rfl : headedScan = sc := Except.ok.inj (inspect_headed.symm.trans hi)
    refine Or.inr (Or.inr fun sc hsc => ?_)
    obtain rfl : headedScan = sc := by simpa [hscan] using hsc
    refine .kept ?_
    rw [windowFates, windowEntries, ← ours.zip_kinds inspect_headed]
    decide

/-- **Not every normal form is of one style.** The line that is not ended goes, and the one before
it comes to be the last one with the carriage return that it has. -/
theorem footed_loses_line_ends :
    Header.render ours ".go" = .ok goHeader ∧ goHeader.IsSingleLine ∧
    (∀ l ∈ goHeader.copyright :: goHeader.license.toList, CodePoint.ofChar '\r' ∉ l) ∧
    CodePoint.ofChar '\n' ∈ footedText ∧ Lines.IsPaired footedText ∧
    ∃ t' n, ours.normalizeText footedText ".go" "a.go" = .ok (t', n) ∧
      t' = refootedText ∧ ¬ Lines.IsPaired t' := by
  have hn := ours.normalize_of_incorrect (e := .crlf) (by decide) inspect_footed (by decide)
  rw [rebuild_footed, if_neg (by decide), if_pos (by decide)] at hn
  refine ⟨render_ours_go, by decide, by decide, by decide, isPaired_footedText, refootedText,
    ⟨refootedLines, .fixed, some footedScan⟩, ?_, rfl, fun h => ?_⟩
  · rw [normalizeText, ofText_footedText]
    simp only [hn]
    rfl
  · exact absurd (h.cr "// Copyright ACME 2025\r\n\r\npackage a" [] rfl) (by decide)

end Settings

end Letterhead
