import Letterhead.Proofs.Header.Failure
import Letterhead.Proofs.Run.Order
import Letterhead.Proofs.Run.Pool

/-!
When a run over files gives a result.

A file stops a run if a pattern that its lines are searched for does, if its header cannot be
rendered for a fault that is not reported, or if its new lines have no bytes. The last two are
matters of the settings, and so is the first one where the patterns can be searched for at all: then
no file stops a run, whatever the tree is, or no header is ever written, so that the tree stays as
it is and each file has the turn that it would have by itself. Otherwise each file is looked at in
the tree that the turns before it leave.
-/

namespace Letterhead

open Letterhead.Tree

namespace Settings

variable {s : Settings} {obstacles : Obstacles} {t u : Tree} {f : String} {files : List String}
  {src : Source} {e : TemplateError} {m : String}

/-- The file at a path, if it can be read and has an extension to count under. -/
def sourceAt? (s : Settings) (t : Tree) (path : String) : Option Source :=
  match t.read path with
  | .error _ => none
  | .ok bs => s.source? path bs

lemma sourceAt?_eq_some_iff :
    s.sourceAt? t f = some src ↔ ∃ bs, t.read f = .ok bs ∧ s.source? f bs = some src := by
  unfold sourceAt?
  cases t.read f <;> simp

/-- The file at a path, if a header is looked for in it: it is not generated, either. -/
def met? (s : Settings) (t : Tree) (path : String) : Option Source :=
  (s.sourceAt? t path).filter fun src => !s.isGenerated src.lines.all

lemma met?_eq_some_iff :
    s.met? t f = some src ↔ s.sourceAt? t f = some src ∧ s.isGenerated src.lines.all = false := by
  simp [met?, Option.filter_eq_some_iff]

/-- Neither a pattern that is searched for in the file ends a run, nor the header, if it is looked
for. -/
structure LetsPass (s : Settings) (src : Source) : Prop where
  pattern : s.halt? src.lines.all src.extension src.name = none
  header : s.isGenerated src.lines.all = false → ∀ e, s.headerError? = some e → e.IsReported

/-! ### One file -/

section Reported

variable (hmet : s.met? t f = some src) (he : s.headerError? = some e)
  (hm : e.message? = some m) (hhalt : s.halt? src.lines.all src.extension src.name = none)

include hmet he hm hhalt

lemma checkFile_of_reported (hne : src.bytes ≠ []) :
    s.checkFile t f = .ok (some ⟨f, .configError, m⟩) := by
  obtain ⟨hat, hg⟩ := met?_eq_some_iff.mp hmet
  obtain ⟨bs, hread, hsrc⟩ := sourceAt?_eq_some_iff.mp hat
  have hlines : s.checkLines src.path src.lines.all src.extension src.name =
      .ok (some ⟨src.path, .configError, m⟩) :=
    s.checkLines_of_reported hg
      (inspect_of_headerError? he src.lines.all src.extension src.name) hm
  rw [checkFile_of_source hread hsrc, checkSource, if_neg (by simpa using hne),
    unlessHalted_of_not_halt? hhalt, hlines, path_of_source? hsrc]
  rfl

lemma fixAt_of_reported :
    s.fixAt obstacles t f = .ok ⟨f, .skipped, some ⟨f, .configError, m⟩⟩ := by
  obtain ⟨hat, hg⟩ := met?_eq_some_iff.mp hmet
  obtain ⟨bs, hread, hsrc⟩ := sourceAt?_eq_some_iff.mp hat
  have hn := s.normalize_of_error (e := src.lines.lineEnd) hg
    (inspect_of_headerError? he src.lines.all src.extension src.name)
  have hsource : s.normalizeSource src = .error (.template e) := by
    rw [normalizeSource, unlessHalted_of_not_halt? hhalt, hn]
    rfl
  simp [fixAt, fate, view, hread, hsrc, hsource, hm, Except.map]

end Reported

/-- Lines are checked unless a header is looked for and meets with a fault that is not reported. -/
lemma exists_checkLines_iff {path ext name : String} {ls : List Text} :
    (∃ o, s.checkLines path ls ext name = .ok o) ↔
      (s.isGenerated ls = false → ∀ e, s.headerError? = some e → e.IsReported) := by
  cases hg : s.isGenerated ls with
  | true => exact iff_of_true ⟨_, s.checkLines_of_generated hg⟩ (by simp)
  | false =>
    rw [imp_iff_right rfl]
    cases he : s.headerError? with
    | none =>
      obtain ⟨sc, hi⟩ := exists_inspect_of_headerError? he ls ext name
      exact iff_of_true ⟨_, s.checkLines_of_ok hg hi⟩ (by simp)
    | some e =>
      have hi := inspect_of_headerError? he ls ext name
      simp only [Option.some.injEq, forall_eq']
      cases hm : e.message? with
      | some m => exact iff_of_true ⟨_, s.checkLines_of_reported hg hi hm⟩ (.of_message? hm)
      | none =>
        rw [s.checkLines_of_unreported hg hi hm]
        exact iff_of_false (by simp) (TemplateError.not_isReported_iff.mpr hm)

lemma exists_checkFile_iff :
    (∃ o, s.checkFile t f = .ok o) ↔
      ∀ src, s.sourceAt? t f = some src → src.bytes ≠ [] → s.LetsPass src := by
  unfold sourceAt? checkFile
  cases hread : t.read f with
  | error err => simp
  | ok bs =>
    dsimp only
    cases hsrc : s.source? f bs with
    | none => simp
    | some src =>
      simp only [Option.some.injEq, forall_eq']
      rw [checkSource]
      by_cases hempty : src.bytes = []
      · exact iff_of_true ⟨_, by rw [hempty]; rfl⟩ fun hne => absurd hempty hne
      · rw [if_neg (by simpa using hempty), imp_iff_right hempty]
        simp only [unlessHalted_eq_ok_iff, exists_and_left, exists_checkLines_iff]
        exact ⟨fun h => ⟨h.1, h.2⟩, fun h => ⟨h.pattern, h.header⟩⟩

lemma exists_fixAt_of_normalized (hat : s.sourceAt? t f = some src) {n : Normalized}
    (hn : s.normalizeSource src = .ok n) :
    (∃ x, s.fixAt obstacles t f = .ok x) ↔ (n.outcome.changes = true → s.HeaderHasBytes) := by
  obtain ⟨bs, hread, hsrc⟩ := sourceAt?_eq_some_iff.mp hat
  rw [fixAt_of_normalize hread hsrc hn]
  cases hch : n.outcome.changes with
  | false => simp
  | true =>
    rw [← isSome_render_iff hsrc (normalizeSource_eq_ok_iff.mp hn).2 hch]
    cases (src.render n.lines).isSome with
    | false => simp
    | true => cases t.hindrance? f (obstacles.hinders f) <;> simp

/-- A file whose lines have no normal form stops a fix unless this is for a fault that is
reported. -/
lemma exists_fixAt_of_error (hat : s.sourceAt? t f = some src) {e : Stop}
    (hn : s.normalizeSource src = .error e) :
    (∃ x, s.fixAt obstacles t f = .ok x) ↔ ∃ e', e = .template e' ∧ e'.IsReported := by
  obtain ⟨bs, hread, hsrc⟩ := sourceAt?_eq_some_iff.mp hat
  cases e with
  | pattern e => simp [fixAt, fate, view, hread, hsrc, hn, Except.map]
  | template e =>
    simp only [Stop.template.injEq, exists_eq_left']
    cases hm : e.message? with
    | some m =>
      refine iff_of_true ?_ (.of_message? hm)
      simp [fixAt, fate, view, hread, hsrc, hn, hm, Except.map]
    | none =>
      refine iff_of_false ?_ (TemplateError.not_isReported_iff.mpr hm)
      simp [fixAt, fate, view, hread, hsrc, hn, hm, Except.map]

lemma exists_fixAt_of_no_source (hat : s.sourceAt? t f = none) :
    ∃ x, s.fixAt obstacles t f = .ok x := by
  unfold sourceAt? at hat
  unfold fixAt fate
  dsimp only [view]
  cases hread : t.read f with
  | error err => exact ⟨_, rfl⟩
  | ok bs =>
    rw [hread] at hat
    dsimp only at hat ⊢
    rw [hat]
    exact ⟨_, rfl⟩

/-- A file stops a fix just if it does not let it pass, or it is to be changed and the header has no
bytes. -/
lemma exists_fixAt_iff :
    (∃ x, s.fixAt obstacles t f = .ok x) ↔
      ∀ src, s.sourceAt? t f = some src → s.LetsPass src ∧
        ∀ n, s.normalize src.lines.all src.extension src.name src.lines.lineEnd = .ok n →
          n.outcome.changes = true → s.HeaderHasBytes := by
  cases hat : s.sourceAt? t f with
  | none => exact iff_of_true (exists_fixAt_of_no_source hat) (by simp)
  | some src =>
    simp only [Option.some.injEq, forall_eq']
    cases hhalt : s.halt? src.lines.all src.extension src.name with
    | some e =>
      rw [exists_fixAt_of_error hat (unlessHalted_of_halt? hhalt _)]
      exact iff_of_false (by simp) fun h => by cases hhalt.symm.trans h.1.pattern
    | none =>
      cases hn : s.normalize src.lines.all src.extension src.name src.lines.lineEnd with
      | ok n =>
        rw [exists_fixAt_of_normalized hat (normalizeSource_eq_ok_iff.mpr ⟨hhalt, hn⟩)]
        have hpass : s.LetsPass src := by
          refine ⟨hhalt, fun hg e he => ?_⟩
          cases hn.symm.trans (s.normalize_of_error hg (inspect_of_headerError? he _ _ _))
        simp [hpass]
      | error e =>
        have hsource : s.normalizeSource src = .error (.template e) := by
          rw [normalizeSource, unlessHalted_of_not_halt? hhalt, hn]
          rfl
        rw [exists_fixAt_of_error hat hsource]
        obtain ⟨hg, he⟩ := s.headerError?_of_normalize hn
        simp only [Stop.template.injEq, exists_eq_left', reduceCtorEq, false_implies,
          implies_true, and_true]
        exact ⟨fun h => ⟨hhalt, fun _ e' he' => Option.some.inj (he.symm.trans he') ▸ h⟩,
          fun h => h.header hg e he⟩

lemma NormalizesTo.header {bs data : Bytes} {o : Outcome} (h : s.NormalizesTo f bs o data)
    (hch : o.changes = true) : s.headerError? = none ∧ s.HeaderHasBytes := by
  obtain ⟨src, n, hsrc, hn, rfl, hrender⟩ := h
  refine ⟨?_, (isSome_render_iff hsrc hn hch).mp (by rw [hrender]; rfl)⟩
  obtain ⟨sc, -, hi, -⟩ := s.normalize_changes hn hch
  rw [Option.eq_none_iff_forall_ne_some]
  intro e he
  cases hi.symm.trans (inspect_of_headerError? he _ _ _)

lemma changeAt_of_no_header (hheader : ¬ (s.headerError? = none ∧ s.HeaderHasBytes)) :
    s.changeAt obstacles t f = none := by
  rw [Option.eq_none_iff_forall_ne_some]
  rintro ⟨place, n⟩ h
  obtain ⟨x, data, mode, hfate, -⟩ := change?_eq_some_iff.mp h
  obtain ⟨-, -, ⟨hno, -⟩ | ⟨bs, data', -, hch, -, hnormal⟩⟩ := fate_cases hfate
  · cases hno
  · exact hheader (hnormal.header hch.2)

lemma not_isChange_of_headerError? (he : s.headerError? = some e) {x : FileFix}
    (hx : s.fixAt obstacles t f = .ok x) : ¬ x.IsChange ∧ ∀ i ∈ x.issue, i.file = f := by
  obtain ⟨w, hfix, -⟩ := s.fixFile_eq obstacles t f
  obtain ⟨-, hname, ⟨hno, -⟩ | ⟨hch, bs, data, -, -, -, hnormal, -⟩⟩ :=
    fixFile_cases (hx ▸ hfix)
  · exact ⟨hno, hname⟩
  · cases he.symm.trans (hnormal.header hch.2).1

/-! ### A run -/

/-- A run gives a report just if no file stops it, each one in the tree that the turns before it
leave. -/
lemma exists_fixFiles_iff {r : FixReport} :
    (∃ r' u, s.fixFiles obstacles r t files = (.ok r', u)) ↔
      ∀ before f after, files = before ++ f :: after →
        ∀ r' u, s.fixFiles obstacles r t before = (.ok r', u) →
          ∃ x, s.fixAt obstacles u f = .ok x := by
  induction files generalizing t r with
  | nil => simp [fixFiles]
  | cons g files ih =>
    obtain ⟨w, hfix, -⟩ := s.fixFile_eq obstacles t g
    cases hx : s.fixAt obstacles t g with
    | error a =>
      rw [hx] at hfix
      refine iff_of_false (by simp [fixFiles, hfix]) fun hall => ?_
      obtain ⟨x, hx'⟩ := hall [] g files rfl r t rfl
      cases hx.symm.trans hx'
    | ok x =>
      rw [hx] at hfix
      have hrest : ∀ files, s.fixFiles obstacles r t (g :: files) =
          s.fixFiles obstacles (r.record x) w files := fun files => by rw [fixFiles, hfix]
      rw [hrest, ih]
      constructor
      · intro hall before f after heq r' u hbefore
        cases before with
        | nil =>
          obtain ⟨rfl, -⟩ := List.cons.inj heq
          obtain ⟨-, rfl⟩ := Prod.mk.inj hbefore
          exact ⟨x, hx⟩
        | cons h before =>
          obtain ⟨rfl, htail⟩ := List.cons.inj heq
          exact hall before f after htail r' u (hrest before ▸ hbefore)
      · intro hall before f after heq r' u hbefore
        exact hall (g :: before) f after (congrArg (g :: ·) heq) r' u (hrest before ▸ hbefore)

/-- A run that writes no header leaves the tree as it is, and each file has the turn that it would
have by itself. -/
lemma fixFiles_of_no_header (hheader : ¬ (s.headerError? = none ∧ s.HeaderHasBytes)) (t : Tree)
    (files : List String) (r : FixReport) :
    (∃ f ∈ files, ∃ a, s.fixAt obstacles t f = .error a ∧
        (s.fixFiles obstacles r t files).1 = .error a) ∨
      ∃ w, s.fixFiles obstacles r t files =
          (.ok ((files.filterMap fun f => (s.fixAt obstacles t f).toOption).foldl
            FixReport.record r), w) ∧
        (∀ f ∈ files, ∃ x, s.fixAt obstacles t f = .ok x) ∧ w.IsSame t := by
  have hnone : ∀ f, s.changeAt obstacles t f = none := fun f => changeAt_of_no_header hheader
  have hspared : files.Pairwise fun f g => ∀ place n, s.changeAt obstacles t f = some (place, n) →
      t.Spares place g :=
    List.pairwise_of_forall fun f g place n h => absurd (h.symm.trans (hnone f)) (by simp)
  refine (fixFiles_of_spared hspared (fun f _ => .refl t f) r).imp_right ?_
  rintro ⟨w, hrun, hall, hbase, hnodes⟩
  refine ⟨w, hrun, hall, hnodes.trans ?_, hbase⟩
  have hkept : ∀ (nodes : Location → Option Node) f,
      writeNode nodes (s.changeAt obstacles t f) = nodes := fun nodes f => by rw [hnone f]; rfl
  simp [hkept]

end Settings

lemma Issue.filter_file {g : String → Option Issue} (hname : ∀ f i, g f = some i → i.file = f)
    {f : String} {i : Issue} (hf : g f = some i) (files : List String) :
    (files.filterMap g).filter (·.file = f) = List.replicate (files.count f) i := by
  induction files with
  | nil => rfl
  | cons x files ih =>
    by_cases hx : x = f
    · subst hx
      rw [List.filterMap_cons_some hf, List.filter_cons_of_pos (by simp [hname x i hf]), ih,
        List.count_cons_self, List.replicate_succ]
    · rw [List.count_cons_of_ne hx, ← ih]
      cases hg : g x with
      | none => rw [List.filterMap_cons_none hg]
      | some j =>
        rw [List.filterMap_cons_some hg, List.filter_cons_of_neg (by simp [hname x j hg, hx])]

namespace Project

variable {p : Project} {s : Settings} {obstacles : Obstacles} {path : String} {files : List String}

lemma fix_eq (hfiles : p.candidates s path = .ok files) (obstacles : Obstacles) :
    p.fix s obstacles path = ((s.fixFiles obstacles .empty p.tree files).1,
      { p with tree := (s.fixFiles obstacles .empty p.tree files).2 }) := by
  rw [fix, hfiles]

/-- Where no pattern ends a run, it gives a report just if each of its files, by itself, does not
stop it. -/
lemma exists_fix_iff (hsafe : ∀ p ∈ s.linePatterns, Pattern.IsSafe s.host p)
    (hfiles : p.candidates s path = .ok files) :
    (∃ r p', p.fix s obstacles path = (.ok r, p')) ↔
      ∀ f ∈ files, ∃ x, s.fixAt obstacles p.tree f = .ok x := by
  rw [fix_eq hfiles]
  by_cases hheader : s.headerError? = none ∧ s.HeaderHasBytes
  · have hall : ∀ u f, ∃ x, s.fixAt obstacles u f = .ok x := fun u f =>
      Settings.exists_fixAt_iff.mpr fun src _ =>
        ⟨⟨Settings.halt?_eq_none hsafe _ _ _, by simp [hheader.1]⟩, fun _ _ _ => hheader.2⟩
    obtain ⟨r, u, hrun⟩ : ∃ r u, s.fixFiles obstacles .empty p.tree files = (.ok r, u) :=
      Settings.exists_fixFiles_iff.mpr fun _ f _ _ _ u _ => hall u f
    exact iff_of_true ⟨r, _, by rw [hrun]⟩ fun f _ => hall p.tree f
  · rcases Settings.fixFiles_of_no_header hheader p.tree files .empty with
      ⟨f, hf, a, hat, hrun⟩ | ⟨w, hrun, hall, -⟩
    · refine iff_of_false ?_ fun hall => ?_
      · rintro ⟨r, p', hr⟩
        cases hrun.symm.trans (Prod.mk.inj hr).1
      · obtain ⟨x, hx⟩ := hall f hf
        cases hat.symm.trans hx
    · exact iff_of_true ⟨_, _, by rw [hrun]⟩ hall

/-- How the runs over files end. -/
structure Endings (p : Project) (s : Settings) (obstacles : Obstacles) (path : String)
    (files : List String) : Prop where
  check_returns_iff : (∃ issues, p.check s path = .ok issues) ↔
    ∀ f ∈ files, ∀ src, s.sourceAt? p.tree f = some src → src.bytes ≠ [] → s.LetsPass src
  /-- Each file is met with in the tree that the turns before it leave. -/
  fix_returns_iff : (∃ r p', p.fix s obstacles path = (.ok r, p')) ↔
    ∀ before f after, files = before ++ f :: after →
      ∀ r t, s.fixFiles obstacles .empty p.tree before = (.ok r, t) →
        ∀ src, s.sourceAt? t f = some src → s.LetsPass src ∧
          ∀ n, s.normalize src.lines.all src.extension src.name src.lines.lineEnd = .ok n →
            n.outcome.changes = true → s.HeaderHasBytes
  /-- Where no pattern ends a run, the tree before it tells. -/
  fix_returns_iff_of_safe : (∀ q ∈ s.linePatterns, Pattern.IsSafe s.host q) →
    ((∃ r p', p.fix s obstacles path = (.ok r, p')) ↔
      ∀ f ∈ files, ∀ src, s.met? p.tree f = some src →
        (∀ e, s.headerError? = some e → e.IsReported) ∧
        ∀ n, s.normalize src.lines.all src.extension src.name src.lines.lineEnd = .ok n →
          n.outcome.changes = true → s.HeaderHasBytes)
  /-- A report of a check tells what each file was found to have. -/
  checked : ∀ issues, p.check s path = .ok issues → ∀ f ∈ files,
    ∃ o, s.checkFile p.tree f = .ok o ∧ ∀ i ∈ o, i ∈ issues
  /-- A report of a fix tells what became of each file. -/
  fixed : ∀ r p', p.fix s obstacles path = (.ok r, p') →
    (s.turns obstacles p.tree files).map (·.fix.path) = files ∧
      r = ((s.turns obstacles p.tree files).map (·.fix)).foldl FixReport.record .empty
  /-- If the header meets with a fault that is reported, only a pattern of generated files can end
  a check, and each file in which the header is looked for has this one issue, each time that it is
  among the files. -/
  check_reported : ∀ e m, s.headerError? = some e → e.message? = some m →
    ((∀ q ∈ s.detection.generatedPatterns, Pattern.IsSafe s.host q) →
      ∃ issues, p.check s path = .ok issues) ∧
    ∀ issues, p.check s path = .ok issues →
      ∀ f ∈ files, ∀ src, s.met? p.tree f = some src → src.bytes ≠ [] →
        issues.filter (·.file = f) = List.replicate (files.count f) ⟨f, .configError, m⟩
  /-- The same holds of a fix, which changes nothing, whether it gives a report or not. -/
  fix_reported : ∀ e m, s.headerError? = some e → e.message? = some m →
    ((∀ q ∈ s.detection.generatedPatterns, Pattern.IsSafe s.host q) →
      ∃ r p', p.fix s obstacles path = (.ok r, p')) ∧
    ∀ r p', p.fix s obstacles path = (.ok r, p') → r.changed = 0 ∧ p'.tree.IsSame p.tree ∧
      ∀ f ∈ files, ∀ src, s.met? p.tree f = some src →
        r.errors.filter (·.file = f) = List.replicate (files.count f) ⟨f, .configError, m⟩

lemma exists_check_iff (hfiles : p.candidates s path = .ok files) :
    (∃ issues, p.check s path = .ok issues) ↔
      ∀ f ∈ files, ∃ o, s.checkFile p.tree f = .ok o := by
  simp [check_eq hfiles]

section Reported

variable (hfiles : p.candidates s path = .ok files) {e : TemplateError} {m : String}
  (he : s.headerError? = some e) (hm : e.message? = some m)

include he hm

lemma letsPass_of_reported
    (hsafe : ∀ q ∈ s.detection.generatedPatterns, Pattern.IsSafe s.host q) (src : Source) :
    s.LetsPass src := by
  refine ⟨Settings.halt?_of_inspect_error hsafe (Settings.inspect_of_headerError? he _ _ _),
    fun _ e' he' => ?_⟩
  cases he.symm.trans he'
  exact .of_message? hm

lemma exists_fixAt_of_reported
    (hsafe : ∀ q ∈ s.detection.generatedPatterns, Pattern.IsSafe s.host q) (t : Tree) (f : String) :
    ∃ x, s.fixAt obstacles t f = .ok x := by
  refine Settings.exists_fixAt_iff.mpr fun src _ =>
    ⟨letsPass_of_reported he hm hsafe src, fun n hn hch => ?_⟩
  obtain ⟨sc, -, hi, -⟩ := s.normalize_changes hn hch
  cases hi.symm.trans (Settings.inspect_of_headerError? he _ _ _)

omit hm in
lemma countP_isChange_of_headerError? (t : Tree) (files : List String) :
    (files.filterMap fun f => (s.fixAt obstacles t f).toOption).countP (decide ·.IsChange) = 0 := by
  refine List.countP_eq_zero.mpr fun x hx => ?_
  obtain ⟨f, -, hf⟩ := List.mem_filterMap.mp hx
  have hx' : s.fixAt obstacles t f = .ok x := toOption_eq_some_iff.mp hf
  simpa using (Settings.not_isChange_of_headerError? he hx').1

include hfiles

lemma check_reported :
    ((∀ q ∈ s.detection.generatedPatterns, Pattern.IsSafe s.host q) →
      ∃ issues, p.check s path = .ok issues) ∧
    ∀ issues, p.check s path = .ok issues →
      ∀ f ∈ files, ∀ src, s.met? p.tree f = some src → src.bytes ≠ [] →
        issues.filter (·.file = f) = List.replicate (files.count f) ⟨f, .configError, m⟩ := by
  refine ⟨fun hsafe => ?_, fun issues hcheck f hf src hmet hne => ?_⟩
  · exact (exists_check_iff hfiles).mpr fun f _ => Settings.exists_checkFile_iff.mpr
      fun src _ _ => letsPass_of_reported he hm hsafe src
  obtain ⟨hall, rfl⟩ := (check_eq hfiles).mp hcheck
  have hpass := Settings.exists_checkFile_iff.mp (hall f hf) src
    (Settings.met?_eq_some_iff.mp hmet).1 hne
  have hissue := Settings.issueAt?_of_ok
    (Settings.checkFile_of_reported hmet he hm hpass.pattern hne)
  have hname : ∀ f i, s.issueAt? p.tree f = some i → i.file = f := fun f i h =>
    Settings.file_of_checkFile (Settings.issueAt?_eq_some_iff.mp h)
  have hperm := (List.mergeSort_perm (files.filterMap (s.issueAt? p.tree)) Issue.isBefore).filter
    (·.file = f)
  rw [Issue.filter_file hname hissue] at hperm
  exact List.perm_replicate.mp hperm

lemma fix_reported :
    ((∀ q ∈ s.detection.generatedPatterns, Pattern.IsSafe s.host q) →
      ∃ r p', p.fix s obstacles path = (.ok r, p')) ∧
    ∀ r p', p.fix s obstacles path = (.ok r, p') → r.changed = 0 ∧ p'.tree.IsSame p.tree ∧
      ∀ f ∈ files, ∀ src, s.met? p.tree f = some src →
        r.errors.filter (·.file = f) = List.replicate (files.count f) ⟨f, .configError, m⟩ := by
  have hheader : ¬ (s.headerError? = none ∧ s.HeaderHasBytes) := fun h => by
    cases he.symm.trans h.1
  refine ⟨fun hsafe => ?_, fun r p' hrun => ?_⟩
  · obtain ⟨r, u, hrun⟩ : ∃ r u, s.fixFiles obstacles .empty p.tree files = (.ok r, u) :=
      Settings.exists_fixFiles_iff.mpr fun _ f _ _ _ u _ =>
        exists_fixAt_of_reported he hm hsafe u f
    exact ⟨r, _, by rw [fix_eq hfiles, hrun]⟩
  rw [fix_eq hfiles] at hrun
  obtain ⟨hr, rfl⟩ := Prod.mk.inj hrun
  rcases Settings.fixFiles_of_no_header hheader p.tree files .empty with
    ⟨f, -, a, -, herror⟩ | ⟨w, hdone, hall, hsame⟩
  · cases hr.symm.trans herror
  rw [FixReport.foldl_record] at hdone
  rw [hdone] at hr ⊢
  obtain rfl := Except.ok.inj hr
  refine ⟨?_, hsame, fun f hf src hmet => ?_⟩
  · have hno : (files.filterMap fun f => (s.fixAt obstacles p.tree f).toOption).countP
        (decide ·.IsChange) = 0 := countP_isChange_of_headerError? he p.tree files
    rw [← countP_isChange] at hno
    simpa [FixReport.changed, FixReport.empty] using hno
  · have hpass := (Settings.exists_fixAt_iff.mp (hall f hf) src
      (Settings.met?_eq_some_iff.mp hmet).1).1
    rw [FixReport.empty, List.nil_append, List.filterMap_filterMap]
    refine Issue.filter_file (fun f i h => ?_) ?_ files
    · obtain ⟨x, hx, hi⟩ := Option.bind_eq_some_iff.mp h
      have hx' : s.fixAt obstacles p.tree f = .ok x := toOption_eq_some_iff.mp hx
      exact (Settings.not_isChange_of_headerError? he hx').2 i hi
    · rw [Settings.fixAt_of_reported hmet he hm hpass.pattern]
      rfl

end Reported

/-- **How the runs over files end.** A check gives a report unless a file that is not empty does not
let it pass: a pattern that it is searched for ends the run, or the header is looked for in it and
meets with a fault that is not reported. A fix gives one unless there is such a file, empty or not,
when it has its turn, or a header without bytes is to come into a file. No other file ends a run,
and a report tells of all of them. A fault that is reported is the issue of each file in which the
header is looked for, and then nothing is changed. -/
theorem endings (hfiles : p.candidates s path = .ok files) (obstacles : Obstacles) :
    Endings p s obstacles path files where
  check_returns_iff := by
    simp only [exists_check_iff hfiles, Settings.exists_checkFile_iff]
  fix_returns_iff := by
    have hstops : ∀ t f, (∃ x, s.fixAt obstacles t f = .ok x) ↔ _ := fun t f =>
      Settings.exists_fixAt_iff
    simp only [← hstops]
    rw [← Settings.exists_fixFiles_iff, fix_eq hfiles]
    constructor
    · rintro ⟨r, p', hrun⟩
      exact ⟨r, _, Prod.ext (Prod.mk.inj hrun).1 rfl⟩
    · rintro ⟨r, u, hrun⟩
      exact ⟨r, _, by rw [hrun]⟩
  fix_returns_iff_of_safe hsafe := by
    rw [exists_fix_iff hsafe hfiles]
    refine forall₂_congr fun f _ => ?_
    simp only [Settings.exists_fixAt_iff, Settings.met?_eq_some_iff]
    constructor
    · rintro hall src ⟨hat, hg⟩
      exact ⟨(hall src hat).1.header hg, (hall src hat).2⟩
    · intro hall src hat
      refine ⟨⟨Settings.halt?_eq_none hsafe _ _ _, fun hg => (hall src ⟨hat, hg⟩).1⟩,
        fun n hn hch => ?_⟩
      obtain ⟨-, hg, -⟩ := s.normalize_changes hn hch
      exact (hall src ⟨hat, hg⟩).2 n hn hch
  checked issues hcheck f hf := by
    obtain ⟨hall, rfl⟩ := (check_eq hfiles).mp hcheck
    obtain ⟨o, ho⟩ := hall f hf
    refine ⟨o, ho, fun i hi => ?_⟩
    rw [List.mem_mergeSort, List.mem_filterMap]
    exact ⟨f, hf, (Settings.issueAt?_of_ok ho).trans hi⟩
  fixed r p' hrun := by
    rw [fix_eq hfiles] at hrun
    exact Settings.report_of_turns (Prod.ext (Prod.mk.inj hrun).1 rfl)
  check_reported _ _ := check_reported hfiles
  fix_reported _ _ := fix_reported hfiles

section Sample

open Settings (plain goFile unhindered)

lemma candidates_congr {s' : Settings} (h : s.files = s'.files) (p : Project) (path : String) :
    p.candidates s path = p.candidates s' path := by
  have hselects : ∀ f, s.selects f = s'.selects f := fun f => by
    unfold Settings.selects Settings.admitsPath
    rw [h]
  have hselect : ∀ files, select s files = select s' files := by
    intro files
    induction files with
    | nil => rfl
    | cons f files ih => rw [select, select, hselects, ih]
  have hfiles : p.files s path = p.files s' path := by rw [files, files, h]
  rw [candidates, candidates, hfiles, funext hselect]

/-- Settings with a template that names what there is not. -/
def nameless : Settings :=
  { plain with copyright := { plain.copyright with format := "Copyright \x7bowner\x7d" } }

/-- Settings with a template that asks a text for an item by a name. -/
def indexed : Settings :=
  { plain with copyright := { plain.copyright with format := "Copyright \x7bholder[x]\x7d" } }

lemma headerError?_nameless :
    nameless.headerError? = some ⟨"Copyright \x7bowner\x7d", .missingName "owner"⟩ := by cbv

lemma headerError?_indexed :
    indexed.headerError? = some ⟨"Copyright \x7bholder[x]\x7d", .unsupported⟩ := by cbv

lemma met?_goFile (hs : s.files = plain.files) (hg : s.detection = plain.detection) {t : Tree}
    {f : String} (hext : plain.effectiveExtension f = (".go", false))
    (hread : t.read f = .ok goFile) : s.met? t f = some (Settings.goSource f goFile) := by
  refine Settings.met?_eq_some_iff.mpr ⟨Settings.sourceAt?_eq_some_iff.mpr ⟨goFile, hread, ?_⟩, ?_⟩
  · have hext' : s.effectiveExtension f = (".go", false) := by
      unfold Settings.effectiveExtension at hext ⊢
      rwa [hs]
    unfold Settings.source?
    rw [hext']
    rfl
  · change s.isGenerated (Lines.ofText (Utf8.decode goFile)).all = false
    rw [Settings.isGenerated, hg]
    rfl

/-- A name that is not there is reported for the file that can be read, and the run goes on to the
other one. -/
theorem mixed_endings :
    ∃ issues r p', mixed.check nameless "." = .ok issues ∧
      mixed.fix nameless unhindered "." = (.ok r, p') ∧
      issues.filter (·.file = "./a.go") = [⟨"./a.go", .configError,
        "Cannot expand template 'Copyright \x7bowner\x7d': KeyError('owner')"⟩] ∧
      r.errors.filter (·.file = "./a.go") = [⟨"./a.go", .configError,
        "Cannot expand template 'Copyright \x7bowner\x7d': KeyError('owner')"⟩] ∧
      r.changed = 0 ∧ p'.tree.IsSame mixed.tree ∧ ∃ i ∈ issues, i.file = "./b.go" := by
  have ha : IsAtTop "./a.go" "a.go" := by decide
  have hfiles : nameless.files = plain.files := rfl
  have hcandidates : mixed.candidates nameless "." = .ok ["./a.go", "./b.go"] :=
    (candidates_congr hfiles mixed ".").trans mixed_candidates
  have hfile : mixed.tree.nodeAt ["a.go"] = some (.file goFile 0o755) := rfl
  have hmet := met?_goFile (s := nameless) rfl rfl (f := "./a.go") (by decide)
    (ha.read_of_file rfl hfile)
  have hm : TemplateError.message? ⟨"Copyright \x7bowner\x7d", .missingName "owner"⟩ =
      some "Cannot expand template 'Copyright \x7bowner\x7d': KeyError('owner')" := by cbv
  have hends := endings hcandidates unhindered
  obtain ⟨hchecks, hissues⟩ := hends.check_reported _ _ headerError?_nameless hm
  obtain ⟨hfixes, hreport⟩ := hends.fix_reported _ _ headerError?_nameless hm
  obtain ⟨issues, hcheck⟩ := hchecks fun _ hq => absurd hq List.not_mem_nil
  obtain ⟨r, p', hfix⟩ := hfixes fun _ hq => absurd hq List.not_mem_nil
  obtain ⟨hchanged, hsame, herrors⟩ := hreport r p' hfix
  refine ⟨issues, r, p', hcheck, hfix,
    hissues issues hcheck _ (by simp) _ hmet (by simp [Settings.goSource, goFile, Settings.ascii]),
    herrors _ (by simp) _ hmet, hchanged, hsame, ⟨"./b.go", .unreadable, ""⟩, ?_, rfl⟩
  obtain ⟨o, ho, hmem⟩ := hends.checked issues hcheck "./b.go" (by simp)
  rw [checkFile_mixed_broken] at ho
  exact hmem _ (Except.ok.inj ho ▸ rfl)

/-- A file of Go, alone. -/
def lone : Project := ⟨.ofFolder [("a.go", .file goFile 0o644)], none⟩

/-- **One fault in a template that is not reported stops both runs.** -/
theorem indexed_stops_runs :
    lone.candidates indexed "." = .ok ["./a.go"] ∧
      (¬ ∃ issues, lone.check indexed "." = .ok issues) ∧
      ¬ ∃ r p', lone.fix indexed unhindered "." = (.ok r, p') := by
  have ha : IsAtTop "./a.go" "a.go" := by decide
  have hcandidates : lone.candidates indexed "." = .ok ["./a.go"] := by
    have hfiles : lone.tree.filesAt? "." = .ok (some ["./a.go"]) :=
      filesAt?_point ["a.go"] (by decide) (by decide) (by decide)
    have hgo : indexed.selects "./a.go" = .ok true := rfl
    rw [candidates, files, if_neg (by decide), hfiles]
    simp [bind, Except.bind, pure, Except.pure, select, hgo]
  have hfile : lone.tree.nodeAt ["a.go"] = some (.file goFile 0o644) := rfl
  have hmet := met?_goFile (s := indexed) rfl rfl (f := "./a.go") (by decide)
    (ha.read_of_file rfl hfile)
  have hno : ¬ TemplateError.IsReported ⟨"Copyright \x7bholder[x]\x7d", .unsupported⟩ :=
    fun h => h.1 rfl
  obtain ⟨hat, hg⟩ := Settings.met?_eq_some_iff.mp hmet
  have hstop : ¬ indexed.LetsPass (Settings.goSource "./a.go" goFile) := fun h =>
    hno (h.header hg _ headerError?_indexed)
  refine ⟨hcandidates, fun h => ?_, fun h => ?_⟩
  · have hall := (exists_check_iff hcandidates).mp h "./a.go" (by simp)
    exact hstop (Settings.exists_checkFile_iff.mp hall _ hat
      (by simp [Settings.goSource, goFile, Settings.ascii]))
  · have hall := (exists_fix_iff (fun _ hq => absurd hq List.not_mem_nil) hcandidates).mp h
      "./a.go" (by simp)
    exact hstop (Settings.exists_fixAt_iff.mp hall _ hat).1

end Sample

end Project

end Letterhead
