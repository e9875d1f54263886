import Mathlib.Logic.Relation
import Mathlib.Order.Bounds.Basic
import Letterhead.Proofs.Header.BelowWindow

/-!
The end of the header window is a least fixpoint.

The window has to hold its bound, the header, and the notices in it where these go above the header.
So where it ends depends on what it holds. A scan that goes from line to line moves the end on with
each notice that it finds. The end never gets past one that leaves room for all notices before it,
and when the scan arrives at the end, this is such an end.
-/

namespace Letterhead

/-- A scan of a window that is under way. -/
structure WindowScan where
  /-- The line that is looked at next. -/
  line : Nat
  /-- The line behind the window, as far as the notices that were found tell. -/
  limit : Nat
  notices : Nat
  kinds : List LineKind

namespace WindowScan

/-- A scan of lines from the offset on. -/
def start (s : Settings) (h : Header) (ls : List Text) (o : Nat) : WindowScan :=
  ⟨o, s.windowLimit ls.length o h.lines.length, 0, []⟩

def IsDone (w : WindowScan) : Prop := w.limit ≤ w.line

/-- One line of the window is looked at. A notice that goes above the header moves the end on. -/
inductive Step (s : Settings) (h : Header) (ls : List Text) (o : Nat) :
    WindowScan → WindowScan → Prop
  | notice {line limit notices : Nat} {kinds : List LineKind} {l : Text} (hline : line < limit)
      (hl : ls[line]? = some l) (hbelow : s.thirdParty.action = .below)
      (hkind : s.lineKind h l = .thirdParty) :
      Step s h ls o ⟨line, limit, notices, kinds⟩
        ⟨line + 1, max limit (s.windowLimit ls.length o (h.lines.length + (notices + 1))),
          notices + 1, kinds ++ [s.lineKind h l]⟩
  | other {line limit notices : Nat} {kinds : List LineKind} {l : Text} (hline : line < limit)
      (hl : ls[line]? = some l)
      (hkind : ¬ (s.thirdParty.action = .below ∧ s.lineKind h l = .thirdParty)) :
      Step s h ls o ⟨line, limit, notices, kinds⟩
        ⟨line + 1, limit, notices, kinds ++ [s.lineKind h l]⟩

/-- Any number of steps. -/
abbrev Steps (s : Settings) (h : Header) (ls : List Text) (o : Nat) :
    WindowScan → WindowScan → Prop :=
  Relation.ReflTransGen (Step s h ls o)

end WindowScan

namespace Settings

variable {s : Settings} {h : Header} {ls : List Text} {length o i notices height height' : Nat}

/-! ### Windows of a given size -/

lemma windowLimit_mono (hle : height ≤ height') :
    s.windowLimit length o height ≤ s.windowLimit length o height' := by
  unfold windowLimit windowSize
  split_ifs
  · exact Nat.le_refl _
  · dsimp only
    omega

lemma windowLimit_le : s.windowLimit length o height ≤ length := by
  unfold windowLimit
  split
  · exact Nat.le_refl _
  · exact Nat.min_le_right _ _

lemma le_windowLimit (ho : o ≤ length) : o ≤ s.windowLimit length o height := by
  unfold windowLimit
  split
  · exact ho
  · omega

lemma windowSize_all_of_lt_windowLimit (ho : o ≤ i) (hi : i < s.windowLimit length o height) :
    (s.windowSize height).all (i - o < ·) = true := by
  unfold windowLimit at hi
  cases hsize : s.windowSize height with
  | none => rfl
  | some size =>
    rw [hsize] at hi
    dsimp only at hi
    rw [Option.all_some, decide_eq_true_eq]
    omega

lemma windowKinds_of_windowLimit_le (ho : o ≤ i)
    (hi : s.windowLimit ls.length o (h.lines.length + notices) ≤ i) :
    s.windowKinds h (i - o) notices (ls.drop i) = [] := by
  cases hdrop : ls.drop i with
  | nil => rfl
  | cons l rest =>
    have hlt : i < ls.length := by
      rw [← Nat.not_le, ← List.drop_eq_nil_iff, hdrop]
      exact List.cons_ne_nil l rest
    rw [windowKinds_cons, if_neg]
    unfold windowLimit at hi
    cases hsize : s.windowSize (h.lines.length + notices) with
    | none =>
      rw [hsize] at hi
      exact absurd hlt (Nat.not_lt.mpr hi)
    | some size =>
      rw [hsize] at hi
      dsimp only at hi
      rw [Option.all_some, decide_eq_true_eq]
      omega

/-- The kinds of the lines from one on to another. -/
def kindsBetween (s : Settings) (h : Header) (ls : List Text) (start stop : Nat) : List LineKind :=
  ((ls.take stop).drop start).map (s.lineKind h)

lemma kindsBetween_self (s : Settings) (h : Header) (ls : List Text) (o : Nat) :
    s.kindsBetween h ls o o = [] := by
  rw [kindsBetween, List.drop_eq_nil_of_le (List.length_take_le o ls), List.map_nil]

lemma kindsBetween_succ {l : Text} (ho : o ≤ i) (hl : ls[i]? = some l) :
    s.kindsBetween h ls o (i + 1) = s.kindsBetween h ls o i ++ [s.lineKind h l] := by
  obtain ⟨hi, -⟩ := List.getElem?_eq_some_iff.mp hl
  have htake : o ≤ (ls.take i).length := by
    rw [List.length_take]
    omega
  rw [kindsBetween, kindsBetween, List.take_add_one, hl, Option.toList_some,
    List.drop_append_of_le_length htake, List.map_append, List.map_singleton]

lemma growth_append (ks ks' : List LineKind) :
    s.growth (ks ++ ks') = s.growth ks + s.growth ks' := by
  unfold growth
  split
  · exact List.count_append
  · rfl

lemma growth_kindsBetween_mono {j : Nat} (hle : i ≤ j) :
    s.growth (s.kindsBetween h ls o i) ≤ s.growth (s.kindsBetween h ls o j) := by
  unfold growth kindsBetween
  split
  · exact (((List.take_prefix_take_left hle).drop o).map _).sublist.count_le _
  · exact Nat.le_refl _

/-- The end of a window that has room for the notices before a line. -/
def windowEnd (s : Settings) (h : Header) (ls : List Text) (o limit : Nat) : Nat :=
  s.windowLimit ls.length o (h.lines.length + s.growth (s.kindsBetween h ls o limit))

end Settings

namespace WindowScan

open Settings

variable {s : Settings} {h : Header} {ls : List Text} {o : Nat} {w w' : WindowScan}

/-! ### What the steps keep -/

/-- A scan on its way through a window. -/
structure IsAt (s : Settings) (h : Header) (ls : List Text) (o : Nat) (w : WindowScan) : Prop where
  offset_le : o ≤ w.line
  line_le : w.line ≤ w.limit
  limit_eq : w.limit = s.windowLimit ls.length o (h.lines.length + w.notices)
  notices_eq : w.notices = s.growth w.kinds
  kinds_eq : w.kinds = s.kindsBetween h ls o w.line
  /-- The window holds what was seen, and what is still to be seen. -/
  whole : w.kinds ++ s.windowKinds h (w.line - o) w.notices (ls.drop w.line) =
    s.windowKinds h 0 0 (ls.drop o)
  /-- No end that suits the notices before it lies before this one. -/
  least : ∀ limit, limit = s.windowEnd h ls o limit → w.limit ≤ limit

lemma isAt_start (ho : o ≤ ls.length) : IsAt s h ls o (start s h ls o) where
  offset_le := Nat.le_refl o
  line_le := le_windowLimit ho
  limit_eq := rfl
  notices_eq := by simp [start, growth]
  kinds_eq := (s.kindsBetween_self h ls o).symm
  whole := by simp [start]
  least limit hlimit := by
    rw [hlimit]
    exact windowLimit_mono (Nat.le_add_right _ _)

lemma IsAt.windowKinds_eq {line limit notices : Nat} {kinds : List LineKind} {l : Text}
    (hw : IsAt s h ls o ⟨line, limit, notices, kinds⟩) (hline : line < limit)
    (hl : ls[line]? = some l) :
    s.windowKinds h (line - o) notices (ls.drop line) =
      s.lineKind h l :: s.windowKinds h (line + 1 - o)
        (if s.thirdParty.action = .below ∧ s.lineKind h l = .thirdParty then notices + 1
          else notices) (ls.drop (line + 1)) := by
  have hoffset : o ≤ line := hw.offset_le
  have hlimit : limit = s.windowLimit ls.length o (h.lines.length + notices) := hw.limit_eq
  rw [List.drop_eq_getElem?_toList_append, hl, Option.toList_some, List.singleton_append,
    windowKinds_cons, if_pos (windowSize_all_of_lt_windowLimit hoffset (hlimit ▸ hline)),
    Nat.sub_add_comm hoffset]

lemma IsAt.step (hw : IsAt s h ls o w) (hstep : Step s h ls o w w') : IsAt s h ls o w' := by
  cases hstep with
  | @notice line limit notices kinds l hline hl hbelow hkind =>
    have hoffset : o ≤ line := hw.offset_le
    have hlimit : limit = s.windowLimit ls.length o (h.lines.length + notices) := hw.limit_eq
    have hnotices : notices = s.growth kinds := hw.notices_eq
    have hkinds : kinds ++ [s.lineKind h l] = s.kindsBetween h ls o (line + 1) := by
      rw [kindsBetween_succ hoffset hl, ← hw.kinds_eq]
    have hgrown : notices + 1 = s.growth (kinds ++ [s.lineKind h l]) := by
      rw [growth_append, ← hnotices, hkind, growth, if_pos hbelow, List.count_singleton_self]
    have hmax : max limit (s.windowLimit ls.length o (h.lines.length + (notices + 1))) =
        s.windowLimit ls.length o (h.lines.length + (notices + 1)) := by
      rw [hlimit]
      exact Nat.max_eq_right (windowLimit_mono (by omega))
    refine ⟨by dsimp only; omega, by dsimp only; omega, hmax, hgrown, hkinds, ?_,
      fun end' hend => ?_⟩
    · rw [← hw.whole]
      dsimp only
      rw [hw.windowKinds_eq hline hl, if_pos ⟨hbelow, hkind⟩, List.append_assoc,
        List.singleton_append]
    · -- the notice lies before any end that is as far as the one so far
      have hle : limit ≤ end' := hw.least end' hend
      dsimp only
      rw [hmax, hend]
      refine windowLimit_mono (Nat.add_le_add_left ?_ _)
      rw [hgrown, hkinds]
      exact growth_kindsBetween_mono (by omega)
  | @other line limit notices kinds l hline hl hkind =>
    have hoffset : o ≤ line := hw.offset_le
    have hnotices : notices = s.growth kinds := hw.notices_eq
    refine ⟨by dsimp only; omega, hline, hw.limit_eq, ?_, ?_, ?_, hw.least⟩
    · dsimp only
      rw [growth_append, ← hnotices, growth_cons, if_neg hkind]
      simp [growth]
    · dsimp only
      rw [kindsBetween_succ hoffset hl, ← hw.kinds_eq]
    · rw [← hw.whole]
      dsimp only
      rw [hw.windowKinds_eq hline hl, if_neg hkind, List.append_assoc, List.singleton_append]

lemma IsAt.steps (hw : IsAt s h ls o w) (hsteps : Steps s h ls o w w') : IsAt s h ls o w' := by
  induction hsteps with
  | refl => exact hw
  | tail _ hstep ih => exact ih.step hstep

/-! ### The end of the scan -/

/-- A scan that is not done goes on: the line that it looks at is there. -/
lemma IsAt.exists_step (hw : IsAt s h ls o w) (hdone : ¬ w.IsDone) : ∃ w', Step s h ls o w w' := by
  obtain ⟨line, limit, notices, kinds⟩ := w
  have hline : line < limit := Nat.not_le.mp hdone
  have hlimit : limit = s.windowLimit ls.length o (h.lines.length + notices) := hw.limit_eq
  have hlt : line < ls.length := Nat.lt_of_lt_of_le (hlimit ▸ hline) windowLimit_le
  have hl : ls[line]? = some ls[line] := List.getElem?_eq_getElem hlt
  by_cases hkind : s.thirdParty.action = .below ∧ s.lineKind h ls[line] = .thirdParty
  · exact ⟨_, .notice hline hl hkind.1 hkind.2⟩
  · exact ⟨_, .other hline hl hkind⟩

/-- **A scan goes on for no longer than there are lines**, wherever its end moves. -/
lemma wellFounded_step (s : Settings) (h : Header) (ls : List Text) (o : Nat) :
    WellFounded fun w' w => Step s h ls o w w' := by
  refine Subrelation.wf (fun {w' w} hstep => ?_) (measure fun w => ls.length - w.line).wf
  change ls.length - w'.line < ls.length - w.line
  cases hstep with
  | notice _ hl =>
    obtain ⟨hlt, -⟩ := List.getElem?_eq_some_iff.mp hl
    dsimp only
    omega
  | other _ hl =>
    obtain ⟨hlt, -⟩ := List.getElem?_eq_some_iff.mp hl
    dsimp only
    omega

lemma IsAt.exists_done (hw : IsAt s h ls o w) : ∃ w', Steps s h ls o w w' ∧ w'.IsDone := by
  induction w using (wellFounded_step s h ls o).induction with
  | h w ih =>
    by_cases hdone : w.IsDone
    · exact ⟨w, .refl, hdone⟩
    · obtain ⟨w', hstep⟩ := hw.exists_step hdone
      obtain ⟨v, hsteps, hv⟩ := ih w' hstep (hw.step hstep)
      exact ⟨v, .head hstep hsteps, hv⟩

lemma IsAt.of_isDone (hw : IsAt s h ls o w) (hdone : w.IsDone) :
    w.kinds = s.windowKinds h 0 0 (ls.drop o) ∧ w.limit = o + w.kinds.length ∧
      IsLeast {limit | limit = s.windowEnd h ls o limit} w.limit := by
  have hline : w.line = w.limit := Nat.le_antisymm hw.line_le hdone
  have hle : w.limit ≤ ls.length := hw.limit_eq ▸ windowLimit_le
  have hoffset := hw.offset_le
  refine ⟨?_, ?_, ?_, fun limit hlimit => hw.least limit hlimit⟩
  · rw [← hw.whole, windowKinds_of_windowLimit_le hw.offset_le (hw.limit_eq ▸ hdone),
      List.append_nil]
  · rw [hw.kinds_eq, kindsBetween, List.length_map, List.length_drop, List.length_take, hline]
    omega
  · rw [Set.mem_ofPred_eq, windowEnd, ← hline, ← hw.kinds_eq, ← hw.notices_eq, ← hw.limit_eq, hline]

end WindowScan

namespace Settings

variable {s : Settings} {ls : List Text} {ext filename : String} {sc : Scan}

/-- **The window ends at the least line that leaves room for the notices before it.** It lies in the
file and holds the kinds of its lines. It is the rest of the file if there is no bound; else it ends
at the least line at which a window of its bound ends, or one of the header and, if they go above
it, of the notices up to that line. A scan whose end moves on while it runs finds this window: it
never runs forever, and it does not stop before it has the kinds of the window and its end. -/
theorem window_isLeast (hi : s.inspect ls ext filename = .ok sc) :
    sc.offset ≤ sc.limit ∧ sc.limit ≤ ls.length ∧ sc.kinds.length = sc.limit - sc.offset ∧
    (∀ i < sc.limit - sc.offset, ∃ l, ls[sc.offset + i]? = some l ∧
      sc.kinds[i]? = some (s.lineKind sc.header l)) ∧
    (s.detection.maxScanLines = 0 → sc.limit = ls.length) ∧
    (s.detection.maxScanLines ≠ 0 →
      IsLeast {limit | limit = min ls.length (sc.offset + max s.detection.maxScanLines
        (sc.header.lines.length + if s.thirdParty.action = .below then
          (s.kindsBetween sc.header ls sc.offset limit).count .thirdParty else 0))} sc.limit) ∧
    (WellFounded fun w' w => WindowScan.Step s sc.header ls sc.offset w w') ∧
    ∀ w, WindowScan.Steps s sc.header ls sc.offset (.start s sc.header ls sc.offset) w →
      (∃ w', WindowScan.Step s sc.header ls sc.offset w w') ∨
        w.IsDone ∧ w.limit = sc.limit ∧ w.kinds = sc.kinds := by
  have hoffset := s.offset_le_of_inspect hi
  obtain ⟨-, -, hkinds⟩ := s.inspect_eq_ok_iff.mp hi
  have hstart : WindowScan.IsAt s sc.header ls sc.offset (.start s sc.header ls sc.offset) :=
    WindowScan.isAt_start hoffset
  -- every scan that is done has found the window
  have hfound : ∀ w, WindowScan.IsAt s sc.header ls sc.offset w → w.IsDone →
      w.limit = sc.limit ∧ w.kinds = sc.kinds := fun w hw hdone => by
    obtain ⟨hsame, hlimit, -⟩ := hw.of_isDone hdone
    have hw : w.kinds = sc.kinds := hsame.trans hkinds.symm
    exact ⟨by rw [hlimit, hw, Scan.limit], hw⟩
  obtain ⟨w, hsteps, hdone⟩ := hstart.exists_done
  obtain ⟨-, -, hleast⟩ := (hstart.steps hsteps).of_isDone hdone
  rw [(hfound w (hstart.steps hsteps) hdone).1] at hleast
  refine ⟨Nat.le_add_right _ _, s.limit_le_of_inspect hi, (Nat.add_sub_cancel_left ..).symm,
    fun i hlt => ?_, fun hscan => ?_, fun hscan => ?_, WindowScan.wellFounded_step ..,
    fun w hw => ?_⟩
  · have hwindow := s.length_window hi
    rw [Scan.limit, Nat.add_sub_cancel_left, ← hwindow] at hlt
    refine ⟨(sc.window ls)[i], ?_, ?_⟩
    · rw [← List.getElem?_drop, ← List.getElem?_take_of_lt (hwindow ▸ hlt)]
      exact List.getElem?_eq_getElem hlt
    · rw [s.kinds_eq_map_window hi, List.getElem?_map, List.getElem?_eq_getElem hlt,
        Option.map_some]
  · rw [hleast.1, windowEnd, windowLimit, windowSize, if_pos hscan]
  · have hend : ∀ limit, s.windowEnd sc.header ls sc.offset limit = min ls.length
        (sc.offset + max s.detection.maxScanLines
          (sc.header.lines.length + s.growth (s.kindsBetween sc.header ls sc.offset limit))) :=
      fun limit => by rw [windowEnd, windowLimit, windowSize, if_neg hscan, Nat.min_comm]
    simpa only [hend, growth] using hleast
  · by_cases hdone : w.IsDone
    · exact .inr ⟨hdone, hfound w (hstart.steps hw) hdone⟩
    · exact .inl ((hstart.steps hw).exists_step hdone)

/-- A window of one line has room for the notice that it holds. -/
theorem sample_window_isLeast :
    sample.inspect sampleLines ".md" "a.md" = .ok sampleScan ∧
      sample.detection.maxScanLines = 1 ∧ sampleScan.limit = 2 ∧
      IsLeast {limit | limit = min 3 (max 1 (1 +
        (sample.kindsBetween sampleScan.header sampleLines 0 limit).count .thirdParty))} 2 := by
  obtain ⟨-, -, -, -, -, hleast, -⟩ := window_isLeast inspect_sample
  refine ⟨inspect_sample, rfl, rfl, ?_⟩
  have htwo := hleast (by decide)
  rw [show sampleScan.limit = 2 from rfl] at htwo
  simpa [show sampleScan.offset = 0 from rfl, show sampleScan.header.lines.length = 1 from rfl,
    show sampleLines.length = 3 from rfl, show sample.detection.maxScanLines = 1 from rfl,
    show sample.thirdParty.action = .below from rfl] using htwo

end Settings

end Letterhead
