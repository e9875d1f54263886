import Letterhead.Proofs.Header.Rebuild

/-!
What becomes of the notices of other holders when a file is rebuilt.

Where they go above or below the header, those of the window are taken out and put back next to
it, each of them once and in their order. Where they are left, each stays where it is unless it is
swallowed: a comment goes as a whole if its lines look like those of a header, also if one of them
is a notice to be left, and a blank line goes with what went before it, whatever its kind.
-/

namespace Letterhead

lemma filter_keptLines_eq_iff {p : Text → Bool} {ls : List Text} {f : List Fate}
    (hlen : f.length = ls.length) :
    (keptLines ls f).filter p = ls.filter p ↔
      ∀ (i : Nat) (l : Text), ls[i]? = some l → p l = true → f[i]? = some .kept := by
  induction ls generalizing f with
  | nil => simp
  | cons l ls ih =>
    obtain ⟨g, f, rfl⟩ : ∃ g f', f = g :: f' := List.exists_cons_of_length_eq_add_one hlen
    have ih := ih (f := f) (by simpa using hlen)
    have hcons : (∀ (i : Nat) (l' : Text), (l :: ls)[i]? = some l' → p l' = true →
          (g :: f)[i]? = some .kept) ↔
        (p l = true → g = .kept) ∧
          ∀ (i : Nat) (l' : Text), ls[i]? = some l' → p l' = true → f[i]? = some .kept := by
      constructor
      · intro h
        exact ⟨fun hp => Option.some.inj (h 0 l rfl hp), fun i => h (i + 1)⟩
      · rintro ⟨h0, hs⟩ (_ | i) l' hl' hp
        · obtain rfl : l = l' := Option.some.inj hl'
          exact congrArg some (h0 hp)
        · exact hs i l' hl' hp
    rw [hcons, ← ih, keptLines_cons]
    by_cases hp : p l = true
    · by_cases hg : g = .kept
      · simp [hp, hg]
      · -- one line is missing, and none can make up for it
        have hshort : ((keptLines ls f).filter p).length ≤ (ls.filter p).length :=
          ((keptLines_sublist ls f).filter p).length_le
        have hne : (keptLines ls f).filter p ≠ l :: ls.filter p := by
          intro h
          rw [h, List.length_cons] at hshort
          omega
        simp [hp, hg, hne]
    · by_cases hg : g = .kept <;> simp [hp, hg]

namespace Settings

variable (s : Settings) {ls : List Text} {ext filename : String} {e : LineEnd} {sc : Scan}

/-- The notices of others among lines, as they are told by the header of a scan. -/
def noticesIn (sc : Scan) (ls : List Text) : List Text :=
  ls.filter fun l => s.lineKind sc.header l = .thirdParty

@[simp] lemma noticesIn_append (sc : Scan) (xs ys : List Text) :
    s.noticesIn sc (xs ++ ys) = s.noticesIn sc xs ++ s.noticesIn sc ys :=
  List.filter_append ..

lemma noticesIn_eq_nil {xs : List Text} (h : ∀ l ∈ xs, s.lineKind sc.header l ≠ .thirdParty) :
    s.noticesIn sc xs = [] := by
  simpa [noticesIn] using h

lemma noticesIn_window (hi : s.inspect ls ext filename = .ok sc) :
    s.noticesIn sc (sc.window ls) = sc.notices ls :=
  (s.notices_eq_filter hi).symm

lemma noticesIn_notices (hi : s.inspect ls ext filename = .ok sc) :
    s.noticesIn sc (sc.notices ls) = sc.notices ls := by
  rw [← s.noticesIn_window hi, noticesIn, noticesIn, List.filter_filter]
  simp

/-! ### Lines that are swallowed -/

/-- Line `i` goes, whatever its kind: in a comment that goes as a whole, or as a blank line behind
something that went. -/
inductive Swallowed (es : List Entry) (f : List Fate) (i : Nat) : Prop where
  | comment (closer : Text) (a b : Nat) (ha : a ≤ i) (hb : i ≤ b)
    (hc : s.IsHeaderComment closer es a b) (hall : ∀ j, a ≤ j → j ≤ b → f[j]? = some .comment)
  | blank (hbl : ∀ e ∈ es[i]?, e.1.isBlank = true) (hf : f[i]? = some .blank)
    (hprev : ∃ g ∈ (Fate.kept :: f)[i]?, g.takesBlank = true)

variable {s} in
lemma Swallowed.not_kept {es : List Entry} {f : List Fate} {i : Nat} (h : s.Swallowed es f i) :
    f[i]? ≠ some .kept := by
  cases h with
  | comment closer a b ha hb hc hall => simp [hall i ha hb]
  | blank hbl hf hprev => simp [hf]

lemma windowFates_eq_kept_iff {i : Nat} {l : Text} {k : LineKind}
    (hl : (s.windowEntries sc ls)[i]? = some (l, k)) (hk : s.removes k = false) :
    (s.windowFates sc ls)[i]? = some .kept ↔
      ¬ s.Swallowed (s.windowEntries sc ls) (s.windowFates sc ls) i := by
  have hlt : i < (s.windowFates sc ls).length := by
    rw [windowFates, length_fates]
    exact (List.getElem?_eq_some_iff.mp hl).1
  have hr := s.reason_windowFates sc ls i hlt
  obtain ⟨g, hg⟩ : ∃ g, (s.windowFates sc ls)[i]? = some g := ⟨_, List.getElem?_eq_getElem hlt⟩
  refine ⟨fun h hsw => hsw.not_kept h, fun h => ?_⟩
  cases g with
  | kept => exact hg
  | line => exact absurd ((hr.line hg).1 (l, k) hl) (by simp [hk])
  | comment =>
    obtain ⟨closer, a, b, ha, hb, hc, hall⟩ := hr.comment hg
    exact absurd (.comment closer a b ha hb hc hall) h
  | blank => exact absurd (.blank (hr.blank hg).1 hg (hr.blank hg).2) h

/-- **What is swallowed looks like a header.** A notice that is to be left and is swallowed is a
blank line or one that opens a comment, or its text in a comment is filler, has the tag of a
license or starts like a notice of our own. -/
theorem Swallowed.looks_ours {es : List Entry} {f : List Fate} {i : Nat} {l : Text}
    (ha : s.thirdParty.action = .leave) (hl : es[i]? = some (l, .thirdParty))
    (h : s.Swallowed es f i) :
    l.isBlank = true ∨ ∃ closer, CommentStyle.closerOf? l = some closer ∨
      isFiller (innerText closer l) = true ∨ isSpdxText (innerText closer l).trim = true ∨
        s.isOwnText (innerText closer l).trim = true := by
  cases h with
  | blank hbl hf hprev => exact Or.inl (hbl _ hl)
  | comment closer a b hai hib hc hall =>
    refine Or.inr ⟨closer, ?_⟩
    rcases hai.eq_or_lt with rfl | hai
    · obtain ⟨e, he, hopen⟩ := hc.opens
      obtain rfl : (l, .thirdParty) = e := Option.some.inj (hl.symm.trans he)
      exact Or.inl hopen
    · have hm := hc.material i hai hib _ hl
      have hleft : s.removes .thirdParty = false := by simp [removes, ha]
      simp only [isMaterial, hleft, Bool.or_false, Bool.or_eq_true, or_assoc] at hm
      exact Or.inr hm

/-! ### Notices in a rebuilt file -/

lemma noticesIn_keptLines_eq_iff (sc : Scan) (ls : List Text) (hr : s.removes .thirdParty = false) :
    s.noticesIn sc (keptLines (sc.window ls) (s.windowFates sc ls)) =
        s.noticesIn sc (sc.window ls) ↔
      ∀ i l, (s.windowEntries sc ls)[i]? = some (l, .thirdParty) →
        ¬ s.Swallowed (s.windowEntries sc ls) (s.windowFates sc ls) i := by
  unfold noticesIn
  rw [filter_keptLines_eq_iff (by rw [windowFates, length_fates, length_windowEntries])]
  constructor
  · intro h i l hl hsw
    obtain ⟨hw, hk⟩ := s.windowEntries_eq_some_iff.mp hl
    exact hsw.not_kept (h i l hw (decide_eq_true hk))
  · intro h i l hw hk
    have hl := s.windowEntries_eq_some_iff.mpr ⟨hw, of_decide_eq_true hk⟩
    exact (s.windowFates_eq_kept_iff hl hr).mpr (h i l hl)

lemma noticesIn_keptLines_eq_nil (sc : Scan) (ls : List Text)
    (hr : s.removes .thirdParty = true) :
    s.noticesIn sc (keptLines (sc.window ls) (s.windowFates sc ls)) = [] := by
  refine s.noticesIn_eq_nil fun l hl hk => ?_
  obtain ⟨⟨l', g⟩, hmem, hg⟩ := List.mem_filterMap.mp hl
  obtain ⟨rfl, rfl⟩ : g = .kept ∧ l' = l := by simpa using hg
  obtain ⟨i, hi⟩ := List.mem_iff_getElem?.mp hmem
  obtain ⟨hw, hf⟩ := List.getElem?_zip_eq_some.mp hi
  have hentry := s.windowEntries_eq_some_iff.mpr ⟨hw, hk⟩
  have hreason := s.reason_windowFates sc ls i (List.getElem?_eq_some_iff.mp hf).1
  have hkept := (hreason.kept hf).1 _ hentry
  simp [hr] at hkept

section

variable (hnew : ∀ l ∈ headerLines sc e ++ [e.tail], s.lineKind sc.header l ≠ .thirdParty)

include hnew

lemma noticesIn_headerLines : s.noticesIn sc (headerLines sc e) = [] :=
  s.noticesIn_eq_nil fun l hl => hnew l (List.mem_append_left _ hl)

lemma noticesIn_separator : s.noticesIn sc (separator sc ls e) = [] := by
  refine s.noticesIn_eq_nil fun l hl => hnew l (List.mem_append_right _ ?_)
  unfold separator at hl
  split at hl
  · simp at hl
  · exact hl

lemma noticesIn_rebuild (hi : s.inspect ls ext filename = .ok sc) :
    s.noticesIn sc ((s.rebuild sc ls e).drop sc.offset) =
      s.noticesIn sc (s.inserted sc ls e) ++
        s.noticesIn sc (keptLines (sc.window ls) (s.windowFates sc ls)) ++
          s.noticesIn sc (ls.drop sc.limit) := by
  rw [s.rebuild_eq hi]
  simp only [List.append_assoc]
  rw [List.drop_left' (List.length_take_of_le (s.offset_le_of_inspect hi))]
  simp only [noticesIn_append, s.noticesIn_separator hnew, List.nil_append]

lemma noticesIn_rebuild_of_moved (hi : s.inspect ls ext filename = .ok sc)
    (ha : s.thirdParty.action = .above ∨ s.thirdParty.action = .below) :
    s.noticesIn sc ((s.rebuild sc ls e).drop sc.offset) = s.noticesIn sc (ls.drop sc.offset) := by
  have hr : s.removes .thirdParty = true := by rcases ha with h | h <;> simp [removes, h]
  have hinserted : s.noticesIn sc (s.inserted sc ls e) = sc.notices ls := by
    have hheader := s.noticesIn_headerLines hnew
    rw [headerLines] at hheader
    rcases ha with h | h <;> simp [inserted, h, hheader, s.noticesIn_notices hi]
  calc s.noticesIn sc ((s.rebuild sc ls e).drop sc.offset)
      = sc.notices ls ++ [] ++ s.noticesIn sc (ls.drop sc.limit) := by
        rw [s.noticesIn_rebuild hnew hi, hinserted, s.noticesIn_keptLines_eq_nil sc ls hr]
    _ = s.noticesIn sc (sc.window ls) ++ s.noticesIn sc (ls.drop sc.limit) := by
        rw [List.append_nil, s.noticesIn_window hi]
    _ = s.noticesIn sc (ls.drop sc.offset) := by rw [drop_offset_eq, noticesIn_append]

lemma noticesIn_rebuild_of_left (hi : s.inspect ls ext filename = .ok sc)
    (ha : s.thirdParty.action = .leave) :
    s.noticesIn sc ((s.rebuild sc ls e).drop sc.offset) =
      s.noticesIn sc (keptLines (sc.window ls) (s.windowFates sc ls)) ++
        s.noticesIn sc (ls.drop sc.limit) := by
  have hinserted : s.noticesIn sc (s.inserted sc ls e) = [] := by
    rw [inserted, ha]
    exact s.noticesIn_headerLines hnew
  rw [s.noticesIn_rebuild hnew hi, hinserted, List.nil_append]

/-- **No notice of another holder is lost**, unless it is to be left and is swallowed. When a file
is rebuilt the lines before the offset stay as they are. Of the notices of others behind it none
is made up, doubled or moved past another one, and all of them are still there if and only if they
go above or below the header or none of those in the window is swallowed. Where they are left,
below the header and the empty line come lines of the file in the order in which they were. -/
theorem normalize_conserves_notices (hg : s.isGenerated ls = false)
    (hi : s.inspect ls ext filename = .ok sc) (hc : sc.isCorrect = false)
    (ha : s.thirdParty.action ≠ .replace) :
    ∃ n, s.normalize ls ext filename e = .ok n ∧
      n.lines.take sc.offset = ls.take sc.offset ∧
      (s.noticesIn sc (n.lines.drop sc.offset)).Sublist (s.noticesIn sc (ls.drop sc.offset)) ∧
      (s.noticesIn sc (n.lines.drop sc.offset) = s.noticesIn sc (ls.drop sc.offset) ↔
        (s.thirdParty.action = .leave →
          ∀ i l, (s.windowEntries sc ls)[i]? = some (l, .thirdParty) →
            ¬ s.Swallowed (s.windowEntries sc ls) (s.windowFates sc ls) i)) ∧
      (s.thirdParty.action = .leave → ∃ body, body.Sublist (ls.drop sc.offset) ∧
        n.lines = ls.take sc.offset ++ headerLines sc e ++ separator sc ls e ++ body) := by
  have hbefore : (s.rebuild sc ls e).take sc.offset = ls.take sc.offset := by
    rw [s.rebuild_eq hi]
    simp only [List.append_assoc]
    exact List.take_left' (List.length_take_of_le (s.offset_le_of_inspect hi))
  refine ⟨_, s.normalize_of_incorrect hg hi hc, hbefore, ?_⟩
  dsimp only
  by_cases hleave : s.thirdParty.action = .leave
  · have hkept := keptLines_sublist (sc.window ls) (s.windowFates sc ls)
    have hr : s.removes .thirdParty = false := by simp [removes, hleave]
    have hbody : s.rebuild sc ls e =
        ls.take sc.offset ++ headerLines sc e ++ separator sc ls e ++
          (keptLines (sc.window ls) (s.windowFates sc ls) ++ ls.drop sc.limit) := by
      rw [s.rebuild_eq hi, inserted, hleave, List.append_assoc _ _ (ls.drop sc.limit)]
      rfl
    rw [s.noticesIn_rebuild_of_left hnew hi hleave, drop_offset_eq sc ls, noticesIn_append,
      List.append_cancel_right_eq, s.noticesIn_keptLines_eq_iff sc ls hr]
    exact ⟨(hkept.filter _).append_right _, ⟨fun h _ => h, fun h => h hleave⟩,
      fun _ => ⟨_, hkept.append_right _, hbody⟩⟩
  · have hmoved : s.thirdParty.action = .above ∨ s.thirdParty.action = .below := by
      cases h : s.thirdParty.action <;> simp_all
    rw [s.noticesIn_rebuild_of_moved hnew hi hmoved]
    exact ⟨.refl _, iff_of_true rfl fun h => absurd h hleave, fun h => absurd h hleave⟩

end

/-! ### Notices that are to be left -/

/-- Settings under which notices of others are left. -/
def leaving : Settings :=
  { Settings.default 2025 with
    copyright := { Copyright.default 2025 with holder := "ACME" }
    thirdParty := ⟨.leave, ["Oracle"]⟩ }

def leavingHeader : Header := ⟨.line "//", "// Copyright ACME 2025", none⟩

lemma render_leaving : Header.render leaving ".go" = .ok leavingHeader := by cbv

lemma lineKind_leaving {l : Text} {b : Bool} (hl : l.trim ≠ leavingHeader.copyright.trim)
    (hown : leaving.isOwnLine leavingHeader.style l = false)
    (hspdx : isSpdxLine leavingHeader.style l = false) (hb : leaving.isThirdParty l = b) :
    leaving.lineKind leavingHeader l = if b then .thirdParty else .content := by
  have hreplace : leaving.isReplaced l = false := rfl
  have hlicense : leavingHeader.license = none := rfl
  simp [lineKind, hl, hown, hspdx, hb, hreplace, hlicense]

lemma lineKind_package : leaving.lineKind leavingHeader "package a" = .content :=
  lineKind_leaving (by decide) (by decide) (by decide) (b := false) (by cbv)

lemma lineKind_leavingHeader :
    ∀ l ∈ leavingHeader.lines ++ [[]], leaving.lineKind leavingHeader l ≠ .thirdParty := by
  have hours : leaving.lineKind leavingHeader "// Copyright ACME 2025" = .copyright := by cbv
  have hempty : leaving.lineKind leavingHeader "" = .content :=
    lineKind_leaving (by decide) (by decide) (by decide) (b := false) (by cbv)
  intro l hl
  rcases List.mem_pair.mp hl with rfl | rfl
  · exact hours ▸ by decide
  · exact hempty ▸ by decide

/-- A file with a notice of another holder behind an old one of our own. -/
def guestLines : List Text := ["// Copyright ACME 2019", "// Oracle", "package a"]

def guestScan : Scan := ⟨leavingHeader, 0, [.ownStale, .thirdParty, .content]⟩

lemma inspect_guest : leaving.inspect guestLines ".go" "a.go" = .ok guestScan := by
  have hown : leaving.lineKind leavingHeader "// Copyright ACME 2019" = .ownStale := by cbv
  have hthird : leaving.lineKind leavingHeader "// Oracle" = .thirdParty :=
    lineKind_leaving (by decide) (by cbv) (by decide) (b := true) (by cbv)
  refine (leaving.inspect_eq_ok_iff).mpr ⟨render_leaving, by decide, ?_⟩
  rw [show guestLines.drop guestScan.offset = guestLines from rfl, guestLines,
    show guestScan.header = leavingHeader from rfl, windowKinds_cons, windowKinds_cons,
    windowKinds_cons, hown, hthird, lineKind_package]
  decide

lemma windowFates_guest : leaving.windowFates guestScan guestLines = [.line, .kept, .kept] := by
  rw [windowFates, windowEntries, ← leaving.zip_kinds inspect_guest]
  decide

theorem guest_is_conserved :
    (∀ l ∈ headerLines guestScan .lf ++ [LineEnd.lf.tail],
      leaving.lineKind guestScan.header l ≠ .thirdParty) ∧
    leaving.isGenerated guestLines = false ∧
    leaving.inspect guestLines ".go" "a.go" = .ok guestScan ∧ guestScan.isCorrect = false ∧
    leaving.thirdParty.action = .leave ∧
    ∃ n, leaving.normalize guestLines ".go" "a.go" .lf = .ok n ∧
      leaving.noticesIn guestScan n.lines = ["// Oracle"] := by
  have hnew : ∀ l ∈ headerLines guestScan .lf ++ [LineEnd.lf.tail],
      leaving.lineKind guestScan.header l ≠ .thirdParty := lineKind_leavingHeader
  obtain ⟨n, hn, -, -, hall, -⟩ :=
    normalize_conserves_notices leaving hnew (by decide) inspect_guest (by decide) (by decide)
  refine ⟨hnew, by decide, inspect_guest, by decide, rfl, n, hn, ?_⟩
  refine (hall.mpr fun _ i l hl hsw => ?_).trans ?_
  · -- the notice is the second line, and that one is kept
    have hf := hsw.not_kept
    rw [windowFates_guest] at hf
    rw [windowEntries, ← leaving.zip_kinds inspect_guest] at hl
    rcases i with _ | _ | _ | i
    · simp [guestLines, guestScan] at hl
    · exact hf rfl
    · exact hf rfl
    · simp [guestLines, guestScan] at hl
  · rw [drop_offset_eq, noticesIn_append, leaving.noticesIn_window inspect_guest]
    decide

/-- A file that starts with a comment of another holder, with the tag of a license. -/
def hostedLines : List Text :=
  ["/**", " * Copyright 2019 Oracle. SPDX-License-Identifier: UPL-1.0", " */", "package a"]

def hostedScan : Scan := ⟨leavingHeader, 0, [.content, .thirdParty, .content, .content]⟩

lemma inspect_hosted : leaving.inspect hostedLines ".go" "a.go" = .ok hostedScan := by
  have hopen : leaving.lineKind leavingHeader "/**" = .content :=
    lineKind_leaving (by decide) (by decide) (by decide) (b := false) (by cbv)
  have hthird : leaving.lineKind leavingHeader
      " * Copyright 2019 Oracle. SPDX-License-Identifier: UPL-1.0" = .thirdParty :=
    lineKind_leaving (by decide) (by decide) (by decide) (b := true) (by cbv)
  have hclose : leaving.lineKind leavingHeader " */" = .content :=
    lineKind_leaving (by decide) (by decide) (by decide) (b := false) (by cbv)
  refine (leaving.inspect_eq_ok_iff).mpr ⟨render_leaving, by decide, ?_⟩
  rw [show hostedLines.drop hostedScan.offset = hostedLines from rfl, hostedLines,
    show hostedScan.header = leavingHeader from rfl, windowKinds_cons, windowKinds_cons,
    windowKinds_cons, windowKinds_cons, hopen, hthird, hclose, lineKind_package]
  decide

lemma rebuild_hosted : leaving.rebuild hostedScan hostedLines .lf =
    (["// Copyright ACME 2025", "", "package a"] : List Text) := by
  decide

/-- **Not every notice of another holder is left where it is to be.** A comment with nothing but
such a notice goes as a whole for the tag of a license in it. -/
theorem hosted_is_swallowed :
    (∀ l ∈ headerLines hostedScan .lf ++ [LineEnd.lf.tail],
      leaving.lineKind hostedScan.header l ≠ .thirdParty) ∧
    leaving.isGenerated hostedLines = false ∧
    leaving.inspect hostedLines ".go" "a.go" = .ok hostedScan ∧ hostedScan.isCorrect = false ∧
    leaving.thirdParty.action = .leave ∧
    leaving.noticesIn hostedScan hostedLines =
      [" * Copyright 2019 Oracle. SPDX-License-Identifier: UPL-1.0"] ∧
    ∃ n, leaving.normalize hostedLines ".go" "a.go" .lf = .ok n ∧ n.outcome = .fixed ∧
      leaving.noticesIn hostedScan n.lines = [] := by
  have hn := leaving.normalize_of_incorrect (e := .lf) (by decide) inspect_hosted (by decide)
  refine ⟨lineKind_leavingHeader, by decide, inspect_hosted, by decide, rfl, ?_, _, hn,
    by decide, ?_⟩
  · rw [← List.drop_zero (l := hostedLines), ← show hostedScan.offset = 0 from rfl,
      drop_offset_eq, noticesIn_append, leaving.noticesIn_window inspect_hosted]
    decide
  · dsimp only
    rw [rebuild_hosted]
    refine leaving.noticesIn_eq_nil fun l hl => ?_
    rcases List.mem_append.mp (show l ∈ (leavingHeader.lines ++ [[]]) ++ [_] from hl) with hl | hl
    · exact lineKind_leavingHeader l hl
    · obtain rfl := List.mem_singleton.mp hl
      exact lineKind_package ▸ by decide

end Settings

end Letterhead
