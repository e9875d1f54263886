import Mathlib.Logic.Relation
import Letterhead.Run.Check
import Letterhead.Proofs.Run.Account

/-!
Files that are checked by a pool of workers.

The workers take up the files in any order, and record what they found in any order. What was
recorded, what is to be recorded and what the waiting files have is the same bag of issues all the
time. Different files have different issues, so sorting the records by file leaves no trace of the
order.
-/

namespace Letterhead

open Letterhead.Tree

/-- A check that is under way. -/
structure CheckPool where
  tree : Tree
  /-- The files that no worker has taken up. -/
  waiting : List String
  /-- What was found in files and is not recorded. -/
  found : List (Option Issue)
  recorded : List Issue

namespace CheckPool

def start (t : Tree) (files : List String) : CheckPool := ⟨t, files, [], []⟩

/-- Nothing is left to be done. -/
def IsDone (q : CheckPool) : Prop := q.waiting = [] ∧ q.found = []

/-- One worker does one thing. A file whose check gives no result is never done with. -/
inductive Step (s : Settings) : CheckPool → CheckPool → Prop
  | check {t : Tree} {front back : List String} {f : String} {found : List (Option Issue)}
      {recorded : List Issue} {o : Option Issue} (h : s.checkFile t f = .ok o) :
      Step s ⟨t, front ++ f :: back, found, recorded⟩ ⟨t, front ++ back, o :: found, recorded⟩
  | record {t : Tree} {waiting : List String} {front back : List (Option Issue)}
      {recorded : List Issue} {o : Option Issue} :
      Step s ⟨t, waiting, front ++ o :: back, recorded⟩
        ⟨t, waiting, front ++ back, recorded ++ o.toList⟩

/-- Any number of steps. -/
abbrev Steps (s : Settings) : CheckPool → CheckPool → Prop := Relation.ReflTransGen (Step s)

end CheckPool

namespace Settings

variable {s : Settings} {t : Tree} {f : String} {files : List String} {issues : List Issue}

/-! ### The issues of files -/

/-- The issue of the file at a path, if its check gives one. -/
def issueAt? (s : Settings) (t : Tree) (path : String) : Option Issue :=
  match s.checkFile t path with
  | .ok o => o
  | .error _ => none

lemma issueAt?_of_ok {o : Option Issue} (h : s.checkFile t f = .ok o) : s.issueAt? t f = o := by
  rw [issueAt?, h]

lemma issueAt?_eq_some_iff {i : Issue} :
    s.issueAt? t f = some i ↔ s.checkFile t f = .ok (some i) := by
  unfold issueAt?
  cases s.checkFile t f <;> simp

lemma issuesOf_eq_ok_iff :
    s.issuesOf t files = .ok issues ↔
      (∀ f ∈ files, ∃ o, s.checkFile t f = .ok o) ∧ issues = files.filterMap (s.issueAt? t) := by
  induction files generalizing issues with
  | nil => simp [issuesOf, eq_comm]
  | cons f files ih =>
    rw [issuesOf, bind_eq_ok_iff]
    constructor
    · rintro ⟨o, ho, h⟩
      obtain ⟨more, hmore, h⟩ := bind_eq_ok_iff.mp h
      obtain ⟨hall, rfl⟩ := ih.mp hmore
      refine ⟨List.forall_mem_cons.mpr ⟨⟨o, ho⟩, hall⟩, ?_⟩
      rw [← Except.ok.inj h, List.filterMap_cons, issueAt?_of_ok ho]
      cases o <;> rfl
    · rintro ⟨hall, rfl⟩
      obtain ⟨⟨o, ho⟩, hall⟩ := List.forall_mem_cons.mp hall
      refine ⟨o, ho, bind_eq_ok_iff.mpr ⟨_, ih.mpr ⟨hall, rfl⟩, ?_⟩⟩
      rw [List.filterMap_cons, issueAt?_of_ok ho]
      cases o <;> rfl

lemma file_of_checkLines {ls : List Text} {ext filename : String} {i : Issue}
    (h : s.checkLines f ls ext filename = .ok (some i)) : i.file = f := by
  unfold checkLines at h
  split at h
  · cases h
  split at h
  · obtain ⟨kind, -, rfl⟩ := Option.map_eq_some_iff.mp (Except.ok.inj h)
    rfl
  · split at h <;> cases h
    rfl

lemma file_of_checkFile {i : Issue} (h : s.checkFile t f = .ok (some i)) : i.file = f := by
  unfold checkFile at h
  split at h
  · cases h
    rfl
  split at h
  · cases h
  next src hsrc =>
  rw [← path_of_source? hsrc]
  unfold checkSource at h
  split at h
  · cases h
    rfl
  · exact file_of_checkLines (unlessHalted_eq_ok_iff.mp h).2

lemma checkFile_of_source {bs : Bytes} {src : Source} (hread : t.read f = .ok bs)
    (hsrc : s.source? f bs = some src) : s.checkFile t f = s.checkSource src := by
  rw [checkFile, hread]
  dsimp only
  rw [hsrc]

lemma checkFile_goFile (hext : plain.effectiveExtension f = (".go", false))
    (hread : t.read f = .ok goFile) :
    plain.checkFile t f = .ok (some ⟨f, .missing, ""⟩) := by
  have hlines : plain.checkLines f (Lines.ofText (Utf8.decode goFile)).all ".go" f =
      .ok (some ⟨f, .missing, ""⟩) := by
    rw [checkLines, if_neg (by decide), inspect_goFile]
    rfl
  have hne : ¬ (goSource f goFile).bytes.isEmpty = true := by simp [goSource, goFile, ascii]
  rw [checkFile_of_source hread (source?_plain hext _), checkSource, if_neg hne]
  exact unlessHalted_eq_ok_iff.mpr ⟨halt?_plain .., hlines⟩

lemma map_file_sublist : ((files.filterMap (s.issueAt? t)).map (·.file)).Sublist files := by
  induction files with
  | nil => exact .refl _
  | cons f files ih =>
    cases h : s.issueAt? t f with
    | none =>
      rw [List.filterMap_cons_none h]
      exact ih.cons f
    | some i =>
      rw [List.filterMap_cons_some h, List.map_cons,
        file_of_checkFile (issueAt?_eq_some_iff.mp h)]
      exact ih.cons_cons f

end Settings

/-! ### Sorting by file -/

namespace Issue

/-- The order of issues in a report. -/
def isBefore (a b : Issue) : Bool := Tree.isBefore a.file b.file

lemma sorted_mergeSort (issues : List Issue) :
    (issues.mergeSort isBefore).Pairwise fun a b => a.file ≤ b.file := by
  refine (List.pairwise_mergeSort ?_ ?_ issues).imp fun {a b} h => of_decide_eq_true h
  · intro a b c hab hbc
    exact decide_eq_true (String.le_trans (of_decide_eq_true hab) (of_decide_eq_true hbc))
  · intro a b
    simp only [Bool.or_eq_true]
    exact (String.le_total a.file b.file).imp decide_eq_true decide_eq_true

variable {issues issues' : List Issue}

/-- Issues of different files. -/
abbrev Distinct (issues : List Issue) : Prop := (issues.map (·.file)).Nodup

lemma Distinct.perm (h : Distinct issues) (hp : issues'.Perm issues) : Distinct issues' :=
  (hp.map (·.file)).nodup_iff.mpr h

lemma Distinct.lt_mergeSort (h : Distinct issues) :
    (issues.mergeSort isBefore).Pairwise fun a b => a.file < b.file := by
  have hne := List.pairwise_map.mp (h.perm (List.mergeSort_perm issues isBefore))
  exact (sorted_mergeSort issues).imp₂ (fun _ _ hle hne => lt_of_le_of_ne hle hne) hne

lemma Distinct.mergeSort_eq (h : Distinct issues) (hp : issues'.Perm issues) :
    issues'.mergeSort isBefore = issues.mergeSort isBefore := by
  have hperm : (issues'.mergeSort isBefore).Perm (issues.mergeSort isBefore) :=
    (List.mergeSort_perm _ _).trans (hp.trans (List.mergeSort_perm _ _).symm)
  refine hperm.eq_of_pairwise (fun a b _ _ hab hba => ?_) (h.perm hp).lt_mergeSort h.lt_mergeSort
  exact absurd (lt_trans hab hba) (lt_irrefl a.file)

end Issue

/-! ### What the steps keep -/

namespace CheckPool

variable {s : Settings} {t : Tree} {files : List String} {q q' : CheckPool}

/-- A pool on its way through files. -/
structure IsAt (s : Settings) (t : Tree) (files : List String) (q : CheckPool) : Prop where
  tree : q.tree = t
  /-- No issue is lost, and none comes twice. -/
  issues : (q.recorded ++ q.found.filterMap id ++ q.waiting.filterMap (s.issueAt? t)).Perm
    (files.filterMap (s.issueAt? t))
  checked : ∀ f ∈ files, f ∈ q.waiting ∨ ∃ o, s.checkFile t f = .ok o

lemma isAt_start : IsAt s t files (start t files) := ⟨rfl, by simp [start], fun _ h => .inl h⟩

lemma IsAt.step (h : IsAt s t files q) (hstep : Step s q q') : IsAt s t files q' := by
  obtain ⟨rfl, hissues, hchecked⟩ := h
  cases hstep with
  | @check t front back f found recorded o hf =>
    refine ⟨rfl, .trans (List.perm_iff_count.mpr fun i => ?_) hissues, fun g hg => ?_⟩
    · cases o with
      | none => simp [Settings.issueAt?_of_ok hf]
      | some j =>
        simp only [Settings.issueAt?_of_ok hf, List.filterMap_cons, List.filterMap_append,
          List.count_append, List.count_cons, id]
        omega
    · rcases hchecked g hg with hw | hdone
      · rcases List.mem_append.mp hw with hw | hw
        · exact .inl (List.mem_append_left _ hw)
        · rcases List.mem_cons.mp hw with rfl | hw
          · exact .inr ⟨o, hf⟩
          · exact .inl (List.mem_append_right _ hw)
      · exact .inr hdone
  | @record t waiting front back recorded o =>
    refine ⟨rfl, .trans (List.perm_iff_count.mpr fun i => ?_) hissues, hchecked⟩
    cases o with
    | none => simp
    | some j =>
      simp only [List.filterMap_cons, List.filterMap_append, List.count_append, List.count_cons,
        Option.toList_some, List.count_nil, id]
      omega

lemma IsAt.steps (h : IsAt s t files q) (hsteps : Steps s q q') : IsAt s t files q' := by
  induction hsteps with
  | refl => exact h
  | tail _ hstep ih => exact ih.step hstep

lemma IsAt.of_isDone (h : IsAt s t files q) (hdone : q.IsDone) :
    q.tree = t ∧ q.recorded.Perm (files.filterMap (s.issueAt? t)) ∧
      ∀ f ∈ files, ∃ o, s.checkFile t f = .ok o := by
  obtain ⟨htree, hissues, hchecked⟩ := h
  rw [hdone.1] at hchecked
  rw [hdone.1, hdone.2] at hissues
  exact ⟨htree, by simpa using hissues, by simpa using hchecked⟩

lemma exists_steps {order waiting : List String} (hperm : waiting.Perm order)
    (hall : ∀ f ∈ order, ∃ o, s.checkFile t f = .ok o) (recorded : List Issue) :
    Steps s ⟨t, waiting, [], recorded⟩
      ⟨t, [], [], recorded ++ order.filterMap (s.issueAt? t)⟩ := by
  induction order generalizing waiting recorded with
  | nil =>
    obtain rfl := hperm.eq_nil
    simpa using Relation.ReflTransGen.refl
  | cons f order ih =>
    obtain ⟨⟨o, ho⟩, hall⟩ := List.forall_mem_cons.mp hall
    obtain ⟨front, back, rfl⟩ := List.append_of_mem (hperm.mem_iff.mpr List.mem_cons_self)
    have hrest := (List.perm_middle.symm.trans hperm).cons_inv
    have hsteps := ih hrest hall (recorded ++ o.toList)
    have hone : (f :: order).filterMap (s.issueAt? t) =
        o.toList ++ order.filterMap (s.issueAt? t) := by
      rw [List.filterMap_cons, Settings.issueAt?_of_ok ho]
      cases o <;> rfl
    rw [hone, ← List.append_assoc]
    have hrecord : Step s ⟨t, front ++ back, [o], recorded⟩
        ⟨t, front ++ back, [], recorded ++ o.toList⟩ :=
      @Step.record s t (front ++ back) [] [] recorded o
    exact .head (.check ho) (.head hrecord hsteps)

end CheckPool

namespace Project

variable {p : Project} {s : Settings} {path : String} {files : List String} {issues : List Issue}

lemma check_eq (hfiles : p.candidates s path = .ok files) :
    p.check s path = .ok issues ↔
      (∀ f ∈ files, ∃ o, s.checkFile p.tree f = .ok o) ∧
        issues = (files.filterMap (s.issueAt? p.tree)).mergeSort Issue.isBefore := by
  have hcheck : p.check s path = ((s.issuesOf p.tree files).mapError .stopped).map
      (·.mergeSort Issue.isBefore) := by
    rw [check, hfiles]
    rfl
  rw [hcheck]
  cases h : s.issuesOf p.tree files with
  | error e =>
    refine iff_of_false (by simp [Except.map]) fun ⟨hall, _⟩ => ?_
    cases h.symm.trans (Settings.issuesOf_eq_ok_iff.mpr ⟨hall, rfl⟩)
  | ok found =>
    obtain ⟨hall, rfl⟩ := Settings.issuesOf_eq_ok_iff.mp h
    exact ⟨fun h => ⟨hall, (Except.ok.inj h).symm⟩, fun h => congrArg Except.ok h.2.symm⟩

/-- **The report of a check does not tell the order of the work.** Each run of a pool that comes to
its end leaves the tree as it was, and its records, sorted by file, are the report. There is a
report just if the check of each file gives a result; then the workers may finish the files in any
order, the report has the files in their order, each one once at most, and an issue is in it just if
the check of its file gives it. -/
theorem check_of_pool (hproper : p.tree.IsProper) (hwalk : s.files.gitTracked = false)
    (hfiles : p.candidates s path = .ok files) :
    (∀ q, CheckPool.Steps s (.start p.tree files) q → q.IsDone →
      q.tree = p.tree ∧ p.check s path = .ok (q.recorded.mergeSort Issue.isBefore)) ∧
    ((∃ issues, p.check s path = .ok issues) ↔
      ∀ f ∈ files, ∃ o, s.checkFile p.tree f = .ok o) ∧
    ∀ issues, p.check s path = .ok issues →
      (∀ order : List String, order.Perm files →
        ∃ q, CheckPool.Steps s (.start p.tree files) q ∧ q.IsDone ∧
          q.recorded = order.filterMap (s.issueAt? p.tree)) ∧
      issues.Pairwise (fun a b => a.file < b.file) ∧
      ∀ i, i ∈ issues ↔ i.file ∈ files ∧ s.checkFile p.tree i.file = .ok (some i) := by
  have hnodup := (apart_candidates hproper hwalk hfiles).1
  have hdistinct : Issue.Distinct (files.filterMap (s.issueAt? p.tree)) :=
    hnodup.sublist Settings.map_file_sublist
  refine ⟨fun q hsteps hdone => ?_, ⟨?_, fun hall => ?_⟩, fun issues hcheck => ?_⟩
  · obtain ⟨htree, hperm, hall⟩ := (CheckPool.isAt_start.steps hsteps).of_isDone hdone
    exact ⟨htree, (check_eq hfiles).mpr ⟨hall, hdistinct.mergeSort_eq hperm⟩⟩
  · rintro ⟨issues, hcheck⟩
    exact ((check_eq hfiles).mp hcheck).1
  · exact ⟨_, (check_eq hfiles).mpr ⟨hall, rfl⟩⟩
  · obtain ⟨hall, rfl⟩ := (check_eq hfiles).mp hcheck
    refine ⟨fun order horder => ?_, hdistinct.lt_mergeSort, fun i => ?_⟩
    · refine ⟨_, CheckPool.exists_steps horder.symm (fun f hf => ?_) [], ⟨rfl, rfl⟩, rfl⟩
      exact hall f (horder.mem_iff.mp hf)
    · rw [List.mem_mergeSort, List.mem_filterMap]
      constructor
      · rintro ⟨f, hf, hi⟩
        have hchecked := Settings.issueAt?_eq_some_iff.mp hi
        rw [Settings.file_of_checkFile hchecked]
        exact ⟨hf, hchecked⟩
      · rintro ⟨hf, hchecked⟩
        exact ⟨i.file, hf, Settings.issueAt?_eq_some_iff.mpr hchecked⟩

section Sample

open Settings (plain goFile)

lemma checkFile_mixed_broken (s : Settings) :
    s.checkFile mixed.tree "./b.go" = .ok (some ⟨"./b.go", .unreadable, ""⟩) := by
  have hb : IsAtTop "./b.go" "b.go" := by decide
  have hlink : mixed.tree.nodeAt ["b.go"] = some (.link "gone") := rfl
  rw [Settings.checkFile, hb.read_of_no_target rfl hlink (by decide) rfl]

/-- The workers may come to the second file first. -/
theorem mixed_check_of_pool :
    ∃ q, CheckPool.Steps plain (.start mixed.tree ["./a.go", "./b.go"]) q ∧ q.IsDone ∧
      q.recorded = [⟨"./b.go", .unreadable, ""⟩, ⟨"./a.go", .missing, ""⟩] ∧
      mixed.check plain "." = .ok [⟨"./a.go", .missing, ""⟩, ⟨"./b.go", .unreadable, ""⟩] := by
  have ha : IsAtTop "./a.go" "a.go" := by decide
  have hfile : mixed.tree.nodeAt ["a.go"] = some (.file goFile 0o755) := rfl
  have hcheckA : plain.checkFile mixed.tree "./a.go" = .ok (some ⟨"./a.go", .missing, ""⟩) :=
    Settings.checkFile_goFile (by decide) (ha.read_of_file rfl hfile)
  have hcheckB := checkFile_mixed_broken plain
  obtain ⟨hruns, hreturns, hreport⟩ := check_of_pool mixed_isProper (by decide) mixed_candidates
  obtain ⟨issues, hissues⟩ := hreturns.mpr (by simp [hcheckA, hcheckB])
  obtain ⟨q, hsteps, hdone, hrecorded⟩ :=
    (hreport issues hissues).1 ["./b.go", "./a.go"] (.swap _ _ _)
  obtain ⟨-, hcheck⟩ := hruns q hsteps hdone
  have hlist : q.recorded = [⟨"./b.go", .unreadable, ""⟩, ⟨"./a.go", .missing, ""⟩] := by
    simp [hrecorded, Settings.issueAt?_of_ok hcheckA, Settings.issueAt?_of_ok hcheckB]
  refine ⟨q, hsteps, hdone, hlist, ?_⟩
  rw [hcheck, hlist, Issue.Distinct.mergeSort_eq (by decide) (.swap _ _ _),
    List.mergeSort_of_pairwise (by decide)]

end Sample

end Project

end Letterhead
