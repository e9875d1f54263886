import Letterhead.Proofs.Header.Agreement
import Letterhead.Proofs.Header.Render

/-!
Where the header of a rebuilt file is found, and where it is expected.

It is found below the notices that were moved above it, and expected below all notices in the
window. The two differ just if the window of the rebuilt file has a further notice: where more
lines go than come, lines that were below the window move up into it.
-/

namespace Letterhead

namespace Scan

lemma first?_eq_of_append {sc : Scan} {k : LineKind} {before after : List LineKind}
    (hk : sc.kinds = before ++ k :: after) (hb : k ∉ before) :
    sc.first? k = some (sc.offset + before.length) := by
  have hnone : before.findIdx? (· = k) = none := by
    simp only [List.findIdx?_eq_none_iff, decide_eq_false_iff_not]
    exact fun x hx hxk => hb (hxk ▸ hx)
  simp [first?, hk, List.findIdx?_append, hnone, List.findIdx?_cons]

end Scan

namespace Settings

variable (s : Settings) {ls : List Text} {ext filename : String} {e : LineEnd} {sc sc' : Scan}

lemma verdict_of_correct {length i : Nat} (hc : sc.isCorrect = true) (hlen : sc.offset < length)
    (hf : sc.first? .copyright = some i) :
    s.verdict sc length =
      if s.detection.requireAtTop ∧ i ≠ sc.expectedIndex s.thirdParty.action then some .misplaced
      else none := by
  have hl : ¬ (sc.header.license.isSome = true ∧ sc.first? .license = none) := fun ⟨h1, h2⟩ =>
    Scan.first?_eq_none_iff.mp h2 ((Scan.isCorrect_iff.mp hc).2 h1)
  rw [verdict, if_neg (by omega), hf]
  simp only [if_neg hl]

/-! ### The kinds at the offset -/

/-- What a scan of a rebuilt file finds: the notices that were moved above the header, its marker
line if it has one, its copyright line, and then other lines. -/
lemma kinds_of_header (hr : Header.render s ext = .ok sc.header) (hd : sc.header.IsDistinct)
    {ts rest : List Text}
    (ht : ts = [] ∨ s.thirdParty.action = .below ∧
      ∀ t ∈ ts, s.lineKind sc.header t = .thirdParty)
    (hk : sc.kinds = s.windowKinds sc.header 0 0 (ts ++ (headerLines sc e ++ rest))) :
    ∃ opening after, sc.kinds = List.replicate ts.length .thirdParty ++
        (opening ++ .copyright :: after) ∧
      opening.length = sc.header.copyrightAt ∧ .copyright ∉ opening := by
  obtain ⟨ks, hks⟩ := s.header_in_window sc.header e ht rest
  have hts : ts.map (s.lineKind sc.header) = List.replicate ts.length .thirdParty := by
    rcases ht with rfl | ⟨-, ht⟩
    · rfl
    · rw [List.map_congr_left ht, List.map_const']
  refine ⟨sc.header.opening.map fun l => s.lineKind sc.header (l ++ e.tail),
    ((sc.header.license.toList ++ sc.header.closing).map fun l =>
      s.lineKind sc.header (l ++ e.tail)) ++ ks, ?_, ?_, ?_⟩
  · rw [hk, headerLines, hks, hts, Header.lines_eq, ← s.lineKind_copyright hd e]
    simp [Function.comp_def]
  · rw [List.length_map, s.copyrightAt_eq hr]
  · intro hm
    obtain ⟨l, hl, hkind⟩ := List.mem_map.mp hm
    exact s.lineKind_marker_ne hr e (List.mem_append_left _ hl) hkind

/-- How far the header of a rebuilt file is from where it is expected: as many lines as the
window has notices below those that were moved above the header. -/
lemma first?_ne_expectedIndex_iff (hr : Header.render s ext = .ok sc'.header)
    (hd : sc'.header.IsDistinct) (hi : s.inspect ls ext filename = .ok sc)
    (hh : sc.header = sc'.header) {rest : List Text}
    (hk : sc'.kinds =
      s.windowKinds sc'.header 0 0 (s.noticesAbove sc ls ++ (headerLines sc' e ++ rest))) :
    ∃ i, sc'.first? .copyright = some i ∧ (i ≠ sc'.expectedIndex s.thirdParty.action ↔
      s.thirdParty.action = .below ∧ .thirdParty ∈ sc'.kinds.drop (sc.notices ls).length) := by
  obtain ⟨opening, after, hkinds, hlen, hno⟩ :=
    s.kinds_of_header hr hd (hh ▸ s.noticesAbove_kind hi) hk
  have hsplit := hkinds
  rw [← List.append_assoc] at hsplit
  refine ⟨_, Scan.first?_eq_of_append hsplit ?_, ?_⟩
  · simpa [List.mem_replicate] using hno
  · by_cases hb : s.thirdParty.action = .below
    · have hts : s.noticesAbove sc ls = sc.notices ls := if_pos hb
      rw [hts] at hkinds ⊢
      have hcount := congrArg (List.count .thirdParty) hkinds
      have hdrop := congrArg (List.drop (sc.notices ls).length) hkinds
      rw [List.count_append, List.count_replicate_self] at hcount
      rw [List.drop_left' List.length_replicate] at hdrop
      rw [Scan.expectedIndex, if_pos hb, hcount, hdrop, and_iff_right hb,
        ← List.count_pos_iff, List.length_append, List.length_replicate]
      omega
    · have hts : s.noticesAbove sc ls = [] := if_neg hb
      rw [hts, Scan.expectedIndex, if_neg hb]
      simp [hb, hlen]

/-! ### Checking what was fixed -/

/-- Settings that put notices of others above the header, which is to stand below them only. -/
def strict : Settings :=
  { Settings.default 2025 with
    copyright := { Copyright.default 2025 with holder := "ACME" }
    detection := { Detection.default with maxScanLines := 3, requireAtTop := true }
    thirdParty := ⟨.below, ["Oracle"]⟩ }

/-- A file with two old notices of our own, and one of another holder below the window. -/
def crowdedLines : List Text :=
  ["// Copyright ACME 2019", "// Copyright ACME 2020", "", "// Oracle"]

def crowdedScan : Scan :=
  ⟨⟨.line "//", "// Copyright ACME 2025", none⟩, 0, [.ownStale, .ownStale, .content]⟩

lemma render_strict : Header.render strict ".go" = .ok crowdedScan.header := by cbv

lemma lineKind_oracle : strict.lineKind crowdedScan.header "// Oracle" = .thirdParty := by
  have hours : strict.isOwnLine crowdedScan.header.style "// Oracle" = false := by cbv
  have hoccurs : strict.isThirdParty "// Oracle" = true := by cbv
  rw [lineKind, hours, hoccurs]
  decide

lemma lineKind_empty : strict.lineKind crowdedScan.header "" = .content := by
  have hours : strict.isOwnLine crowdedScan.header.style "" = false := by decide
  have hoccurs : strict.isThirdParty "" = false := by cbv
  rw [lineKind, hours, hoccurs]
  decide

lemma inspect_crowded : strict.inspect crowdedLines ".go" "a.go" = .ok crowdedScan := by
  have h19 : strict.lineKind crowdedScan.header "// Copyright ACME 2019" = .ownStale := by cbv
  have h20 : strict.lineKind crowdedScan.header "// Copyright ACME 2020" = .ownStale := by cbv
  refine (strict.inspect_eq_ok_iff).mpr ⟨render_strict, by decide, ?_⟩
  rw [show crowdedLines.drop crowdedScan.offset = crowdedLines from rfl, crowdedLines,
    windowKinds_cons, windowKinds_cons, windowKinds_cons, h19, h20,
    lineKind_empty]
  decide

lemma rebuild_crowded : strict.rebuild crowdedScan crowdedLines .lf =
    (["// Copyright ACME 2025", "", "// Oracle"] : List Text) := by
  decide

end Settings

end Letterhead
