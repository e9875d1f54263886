import Letterhead.Proofs.Run.Fate
import Letterhead.Proofs.Tree.Walk

/-!
The order of a run.

Each file is read when it has its turn, so what became of the files before it is seen if its path
leads to one of them, or passes a link that was replaced. Where no file is looked for where another
one is changed, every turn sees the tree as it was at first. Then the order does not matter. What is
told of a file that cannot be replaced may differ from run to run even so, and nothing follows from
it.
-/

namespace Letterhead

/-! ### What is told of files that are not replaced -/

/-- An issue without what is told of a file that was not replaced. -/
def Issue.bare (i : Issue) : Issue :=
  if i.kind = .unwritable then { i with detail := "" } else i

def FileFix.bare (f : FileFix) : FileFix := { f with issue := f.issue.map Issue.bare }

def FixReport.bare (r : FixReport) : FixReport := { r with errors := r.errors.map Issue.bare }

lemma FixReport.bare_record (r : FixReport) (f : FileFix) :
    (r.record f).bare = r.bare.record f.bare := by
  obtain ⟨path, outcome, _ | i⟩ := f
  · cases outcome <;> rfl
  · simp [record, bare, FileFix.bare]

open Letterhead.Tree

namespace Settings

variable {s : Settings} {obstacles obstacles' : Obstacles} {t u : Tree} {files files' : List String}
  {r r' : FixReport}

section Told

variable (hhinders : obstacles'.hinders = obstacles.hinders)

include hhinders

lemma fixFile_bare (s : Settings) (t : Tree) (path : String) :
    (s.fixFile obstacles' t path).2 = (s.fixFile obstacles t path).2 ∧
      (s.fixFile obstacles' t path).1.map FileFix.bare =
        (s.fixFile obstacles t path).1.map FileFix.bare := by
  unfold fixFile
  split
  · exact ⟨rfl, rfl⟩
  split
  · exact ⟨rfl, rfl⟩
  unfold fixSource
  dsimp only
  rw [hhinders]
  split
  · exact ⟨rfl, rfl⟩
  · exact ⟨rfl, rfl⟩
  split
  · exact ⟨rfl, rfl⟩
  split
  · exact ⟨rfl, rfl⟩
  split <;> exact ⟨rfl, rfl⟩

/-- The tree and the numbers of a run do not depend on what is told of files that are not replaced,
and the issues differ in nothing else. -/
lemma fixFiles_bare (s : Settings) (t : Tree) (files : List String) (hr : r'.bare = r.bare) :
    (s.fixFiles obstacles' r' t files).2 = (s.fixFiles obstacles r t files).2 ∧
      (s.fixFiles obstacles' r' t files).1.map FixReport.bare =
        (s.fixFiles obstacles r t files).1.map FixReport.bare := by
  induction files generalizing t r r' with
  | nil => exact ⟨rfl, congrArg Except.ok hr⟩
  | cons f files ih =>
    obtain ⟨htree, hfix⟩ := fixFile_bare hhinders s t f
    rw [fixFiles, fixFiles]
    rcases h : s.fixFile obstacles t f with ⟨x, w⟩
    rcases h' : s.fixFile obstacles' t f with ⟨x', w'⟩
    rw [h, h'] at htree hfix
    obtain rfl : w' = w := htree
    cases x with
    | error e =>
      cases x' with
      | error e' =>
        cases hfix
        exact ⟨rfl, rfl⟩
      | ok fix' => cases hfix
    | ok fix =>
      cases x' with
      | error e' => cases hfix
      | ok fix' =>
        refine ih _ ?_
        rw [FixReport.bare_record, FixReport.bare_record, hr, Except.ok.inj hfix]

end Told

/-- No file is changed where another one is looked for. -/
def IsIndependent (s : Settings) (obstacles : Obstacles) (t : Tree) (files : List String) : Prop :=
  ∀ f ∈ files, ∀ g ∈ files, g ≠ f → ∀ place n, s.changeAt obstacles t f = some (place, n) →
    t.Spares place g

lemma fixFile_of_alike (s : Settings) (obstacles : Obstacles) {f : String} (h : t.Alike u f) :
    ∃ w, s.fixFile obstacles u f = (s.fixAt obstacles t f, w) ∧
      w.nodeAt = writeNode u.nodeAt (s.changeAt obstacles t f) ∧ w.base = u.base ∧
      ∀ g, t.Alike u g →
        (∀ place n, s.changeAt obstacles t f = some (place, n) → t.Spares place g) →
        t.Alike w g := by
  obtain ⟨w, hfix, hw⟩ := s.fixFile_eq obstacles u f
  have hfixAt : s.fixAt obstacles u f = s.fixAt obstacles t f := by rw [fixAt, h.view, fixAt]
  have hchangeAt : s.changeAt obstacles u f = s.changeAt obstacles t f := by
    rw [changeAt, h.view, changeAt]
  rw [hchangeAt] at hw
  refine ⟨w, hfixAt ▸ hfix, hw.nodeAt, hw.base, fun g hg hspares => ?_⟩
  cases hchange : s.changeAt obstacles t f with
  | none =>
    rw [hchange] at hw
    have hsame : w.IsSame u := hw
    exact ⟨hsame.base.trans hg.base, fun x hx => hsame.nodeAt ▸ hg.face x hx,
      fun l hl => hsame.nodeAt ▸ hg.found l hl⟩
  | some c =>
    rw [hchange] at hw
    obtain ⟨data, mode, hn, hrewrites⟩ := hw
    exact hg.update hrewrites.toIsUpdate (hspares c.1 c.2 hchange)

lemma IsIndependent.pairwise (hfree : s.IsIndependent obstacles t files) (hnodup : files.Nodup) :
    files.Pairwise fun f g => ∀ place n, s.changeAt obstacles t f = some (place, n) →
      t.Spares place g :=
  hnodup.imp_of_mem fun {f g} hf hg hne => hfree f hf g hg (Ne.symm hne)

/-- A run in which no file is changed where a later one is looked for does, turn by turn, what the
first tree tells. -/
lemma fixFiles_of_spared
    (hfree : files.Pairwise fun f g => ∀ place n, s.changeAt obstacles t f = some (place, n) →
      t.Spares place g)
    (halike : ∀ f ∈ files, t.Alike u f) (r : FixReport) :
    (∃ f ∈ files, ∃ e, s.fixAt obstacles t f = .error e ∧
        (s.fixFiles obstacles r u files).1 = .error e) ∨
      ∃ w, s.fixFiles obstacles r u files =
          (.ok ((files.filterMap fun f => (s.fixAt obstacles t f).toOption).foldl
            FixReport.record r), w) ∧
        (∀ f ∈ files, ∃ fix, s.fixAt obstacles t f = .ok fix) ∧ w.base = u.base ∧
        w.nodeAt =
          files.foldl (fun nodes f => writeNode nodes (s.changeAt obstacles t f)) u.nodeAt := by
  induction files generalizing u r with
  | nil => exact .inr ⟨u, rfl, by simp, rfl, rfl⟩
  | cons f files ih =>
    obtain ⟨hf, hfree⟩ := List.pairwise_cons.mp hfree
    obtain ⟨w, hfix, hw, hbase, hstill⟩ :=
      s.fixFile_of_alike obstacles (halike f List.mem_cons_self)
    cases hat : s.fixAt obstacles t f with
    | error e =>
      refine .inl ⟨f, List.mem_cons_self, e, hat, ?_⟩
      rw [fixFiles, hfix, hat]
    | ok fix =>
      have hrest : s.fixFiles obstacles r u (f :: files) =
          s.fixFiles obstacles (r.record fix) w files := by
        rw [fixFiles, hfix, hat]
      have halike' : ∀ g ∈ files, t.Alike w g := fun g hg =>
        hstill g (halike g (List.mem_cons_of_mem f hg)) (hf g hg)
      rw [hrest]
      rcases ih hfree halike' (r.record fix) with
        ⟨g, hg, e, herror, hrun⟩ | ⟨w', hrun, hall, hbase', hnodes⟩
      · exact .inl ⟨g, List.mem_cons_of_mem f hg, e, herror, hrun⟩
      · refine .inr ⟨w', ?_, ?_, hbase'.trans hbase, ?_⟩
        · rw [hrun, List.filterMap_cons_some (by rw [hat]; rfl), List.foldl_cons]
        · exact List.forall_mem_cons.mpr ⟨⟨fix, hat⟩, hall⟩
        · rw [hnodes, List.foldl_cons, hw]

lemma fixFiles_of_alike (hnodup : files.Nodup) (hfree : s.IsIndependent obstacles t files)
    (halike : ∀ f ∈ files, t.Alike u f) (r : FixReport) :
    (∃ f ∈ files, ∃ e, s.fixAt obstacles t f = .error e ∧
        (s.fixFiles obstacles r u files).1 = .error e) ∨
      ∃ w, s.fixFiles obstacles r u files =
          (.ok ((files.filterMap fun f => (s.fixAt obstacles t f).toOption).foldl
            FixReport.record r), w) ∧
        (∀ f ∈ files, ∃ fix, s.fixAt obstacles t f = .ok fix) ∧ w.base = u.base ∧
        w.nodeAt =
          files.foldl (fun nodes f => writeNode nodes (s.changeAt obstacles t f)) u.nodeAt :=
  fixFiles_of_spared (hfree.pairwise hnodup) halike r

lemma IsIndependent.place_ne (hfree : s.IsIndependent obstacles t files) {f g : String}
    (hf : f ∈ files) (hg : g ∈ files) (hne : g ≠ f) {place place' : Location} {n n' : Node}
    (h : s.changeAt obstacles t f = some (place, n))
    (h' : s.changeAt obstacles t g = some (place', n')) : place ≠ place' := by
  obtain ⟨fix, data, mode, hfate, hplace, -, -⟩ := change?_eq_some_iff.mp h'
  obtain ⟨-, -, ⟨hno, -⟩ | ⟨bs, -, -, -, hread, -⟩⟩ := fate_cases hfate
  · cases hno
  · rintro rfl
    exact (hfree f hf g hg hne place n h).locate_false_ne hread hplace

/-- **Files that are no links and stand in different places are independent.** -/
theorem isIndependent_of_linkless (hlinks : ∀ f ∈ files, ∀ place target,
    t.locate f false = .ok place → t.nodeAt place ≠ some (.link target))
    (hapart : t.Apart files) : s.IsIndependent obstacles t files := by
  have hplace : ∀ {f bs}, f ∈ files → t.read f = .ok bs → ∃ l mode, t.locate f = .ok l ∧
      t.locate f false = .ok l ∧ t.nodeAt l = some (.file bs mode) := by
    intro f bs hf hread
    obtain ⟨l, mode, place, hlocate, hfile, -, hplace, rfl | hlink⟩ := exists_of_read hread
    · exact ⟨place, mode, hlocate, hplace, hfile⟩
    · obtain ⟨target, htarget⟩ := hlink.link
      exact absurd htarget (hlinks f hf place target hplace)
  intro f hf g hg hne place n hchange
  obtain ⟨fix, data, mode, hfate, hfplace, -, -⟩ := change?_eq_some_iff.mp hchange
  obtain ⟨-, -, ⟨hno, -⟩ | ⟨bs, -, -, -, hread, -⟩⟩ := fate_cases hfate
  · cases hno
  obtain ⟨l, m, -, hplace', hfile⟩ := hplace hf hread
  obtain rfl := Except.ok.inj (hplace'.symm.trans hfplace)
  refine ⟨fun hl => ?_, fun _ => ⟨bs, m, hfile⟩⟩
  obtain ⟨l', m', hl', hgplace, -⟩ := hplace hg (read_eq_ok_iff.mpr ⟨_, _, hl, hfile⟩)
  obtain rfl := Except.ok.inj (hl'.symm.trans hl)
  have : Std.Symm fun f g => ∀ l, t.locate f false = .ok l → t.locate g false ≠ .ok l :=
    ⟨fun _ _ h l hl hl' => h l hl' hl⟩
  exact hapart.forall hg hf hne _ hgplace hplace'

/-- Another order of independent files gives the same tree, the same numbers, and the same issues in
the new order. -/
lemma fixFiles_of_perm (hperm : files'.Perm files) (hnodup : files.Nodup)
    (hfree : s.IsIndependent obstacles t files)
    (hrun : s.fixFiles obstacles .empty t files = (.ok r, u)) :
    ∃ r' u', s.fixFiles obstacles .empty t files' = (.ok r', u') ∧ u'.IsSame u ∧
      r'.fixed = r.fixed ∧ r'.added = r.added ∧ r'.errors.Perm r.errors := by
  have hfree' : s.IsIndependent obstacles t files' := fun f hf g hg =>
    hfree f (hperm.mem_iff.mp hf) g (hperm.mem_iff.mp hg)
  rcases fixFiles_of_alike hnodup hfree (fun f _ => .refl t f) .empty with
    ⟨f, -, e, -, herror⟩ | ⟨w, hdone, hall, hbase, hnodes⟩
  · rw [hrun] at herror
    cases herror
  obtain ⟨hr, rfl⟩ := Prod.mk.inj (hrun.symm.trans hdone)
  rcases fixFiles_of_alike (hperm.nodup_iff.mpr hnodup) hfree' (fun f _ => .refl t f) .empty with
    ⟨f, hf, e, herror, -⟩ | ⟨w', hdone', -, hbase', hnodes'⟩
  · obtain ⟨fix, hfix⟩ := hall f (hperm.mem_iff.mp hf)
    cases hfix.symm.trans herror
  have hfixes := hperm.filterMap fun f => (s.fixAt obstacles t f).toOption
  rw [FixReport.foldl_record] at hr hdone'
  obtain rfl := Except.ok.inj hr
  refine ⟨_, w', hdone', ⟨?_, hbase'.trans hbase.symm⟩, ?_, ?_, ?_⟩
  · rw [hnodes, hnodes']
    -- what is written in two turns is written in different places
    refine hperm.foldl_eq' (fun f hf g hg nodes => ?_) _
    by_cases hne : g = f
    · rw [hne]
    cases hf' : s.changeAt obstacles t f with
    | none => rfl
    | some c =>
      cases hg' : s.changeAt obstacles t g with
      | none => rfl
      | some c' =>
        exact Function.update_comm (hfree'.place_ne hf hg hne hf' hg') _ _ _
  · exact congrArg (FixReport.empty.fixed + ·) (hfixes.countP_eq _)
  · exact congrArg (FixReport.empty.added + ·) (hfixes.countP_eq _)
  · exact (hfixes.filterMap _).append_left _

/-- **The order does not matter for independent files.** If a run gives a result in one order, it
gives one in any other order: the same tree, the same numbers, and the same issues in the new order,
but for what is told of files that were not replaced; and this, too, if the same is told of them.
Files that are no links and stand in different places are independent. -/
theorem fixFiles_perm (hperm : files'.Perm files) (hnodup : files.Nodup) :
    (s.IsIndependent obstacles t files → obstacles'.hinders = obstacles.hinders →
      ∀ r u, s.fixFiles obstacles .empty t files = (.ok r, u) →
        ∃ r' u', s.fixFiles obstacles' .empty t files' = (.ok r', u') ∧ u'.IsSame u ∧
          r'.fixed = r.fixed ∧ r'.added = r.added ∧
          (r'.errors.map Issue.bare).Perm (r.errors.map Issue.bare) ∧
          (obstacles'.describe = obstacles.describe → r'.errors.Perm r.errors)) ∧
    ((∀ f ∈ files, ∀ place target, t.locate f false = .ok place →
        t.nodeAt place ≠ some (.link target)) → t.Apart files →
      s.IsIndependent obstacles t files) := by
  refine ⟨fun hfree hhinders r u hrun => ?_, isIndependent_of_linkless⟩
  obtain ⟨r₁, u', hrun₁, hsame, hfixed, hadded, herrors⟩ :=
    fixFiles_of_perm hperm hnodup hfree hrun
  obtain ⟨htree, hreport⟩ := s.fixFiles_bare hhinders t files' rfl
  rcases hrun' : s.fixFiles obstacles' .empty t files' with ⟨x, w⟩
  rw [hrun₁, hrun'] at htree hreport
  obtain rfl : w = u' := htree
  cases x with
  | error e => cases hreport
  | ok r' =>
    have hbare : r'.bare = r₁.bare := Except.ok.inj hreport
    refine ⟨r', w, rfl, hsame, (congrArg FixReport.fixed hbare).trans hfixed,
      (congrArg FixReport.added hbare).trans hadded, ?_, fun hdescribe => ?_⟩
    · have hissues : r'.errors.map Issue.bare = r₁.errors.map Issue.bare :=
        congrArg FixReport.errors hbare
      rw [hissues]
      exact herrors.map _
    · obtain rfl : obstacles' = obstacles := by
        cases obstacles
        cases obstacles'
        cases hhinders
        cases hdescribe
        rfl
      obtain ⟨hr, -⟩ := Prod.mk.inj (hrun'.symm.trans hrun₁)
      rwa [Except.ok.inj hr]

/-- Two files of Go at the top. -/
def pair : Tree := .ofFolder [("a.go", .file goFile 0o644), ("b.go", .file goFile 0o600)]

lemma turn_pair {f : String} (hf : f ∈ ["a.go", "b.go"]) :
    plain.fixAt unhindered pair f = .ok ⟨f, .added, none⟩ ∧ pair.locate f = .ok [f] ∧
      ∃ mode, plain.changeAt unhindered pair f = some ([f], .file goFixed mode) ∧
        pair.nodeAt [f] = some (.file goFile mode) := by
  simp only [List.mem_cons, List.not_mem_nil, or_false] at hf
  rcases hf with rfl | rfl
  · have hfile : pair.nodeAt ["a.go"] = some (.file goFile 0o644) := rfl
    have hname : IsAtTop "a.go" "a.go" := by decide
    obtain ⟨hfix, hchange⟩ := turn_of_goFile (by decide) (hname.view_of_file rfl hfile)
    exact ⟨hfix, hname.locate_of_file rfl hfile true, _, hchange, hfile⟩
  · have hfile : pair.nodeAt ["b.go"] = some (.file goFile 0o600) := rfl
    have hname : IsAtTop "b.go" "b.go" := by decide
    obtain ⟨hfix, hchange⟩ := turn_of_goFile (by decide) (hname.view_of_file rfl hfile)
    exact ⟨hfix, hname.locate_of_file rfl hfile true, _, hchange, hfile⟩

theorem pair_in_any_order :
    ∃ u u', plain.fixFiles unhindered .empty pair ["a.go", "b.go"] = (.ok ⟨0, 2, []⟩, u) ∧
      plain.fixFiles unhindered .empty pair ["b.go", "a.go"] = (.ok ⟨0, 2, []⟩, u') ∧
      u'.IsSame u := by
  have hfree : plain.IsIndependent unhindered pair ["a.go", "b.go"] := by
    intro f hf g hg hne place n hplace
    obtain ⟨-, -, mode, hchange, hfile⟩ := turn_pair hf
    obtain ⟨-, hlocate, -⟩ := turn_pair hg
    cases hplace.symm.trans hchange
    refine ⟨fun h => hne ?_, fun _ => ⟨_, _, hfile⟩⟩
    simpa using Except.ok.inj (hlocate.symm.trans h)
  rcases fixFiles_of_alike (by decide) hfree (fun f _ => .refl pair f) .empty with
    ⟨f, hf, e, herror, -⟩ | ⟨u, hrun, -⟩
  · cases herror.symm.trans (turn_pair hf).1
  rw [List.filterMap_cons_some (by rw [(turn_pair (by decide)).1]; rfl),
    List.filterMap_cons_some (by rw [(turn_pair (by decide)).1]; rfl)] at hrun
  obtain ⟨hany, -⟩ := fixFiles_perm (List.Perm.swap "a.go" "b.go" []) (by decide)
  obtain ⟨r', u', hrun', hsame, hfixed, hadded, -, herrors⟩ := hany hfree rfl _ _ hrun
  obtain ⟨fixed, added, errors⟩ := r'
  obtain rfl : fixed = 0 := hfixed
  obtain rfl : added = 2 := hadded
  obtain rfl : errors = [] := List.Perm.eq_nil (herrors rfl)
  exact ⟨u, u', hrun, hrun', hsame⟩

/-- A link to a file of Go, and the file. -/
def linked : Tree := .ofFolder [("a.go", .link "b.go"), ("b.go", .file goFile 0o644)]

/-- **Where a link leads to another file of the run, the order matters.** The link is replaced by a
file of its own if it has its turn first; else it leads to a file with its header, and stays. -/
theorem linked_depends_on_order :
    ∃ u u', plain.fixFiles unhindered .empty linked ["a.go", "b.go"] = (.ok ⟨0, 2, []⟩, u) ∧
      u.nodeAt ["a.go"] = some (.file goFixed 0o644) ∧
      plain.fixFiles unhindered .empty linked ["b.go", "a.go"] = (.ok ⟨0, 1, []⟩, u') ∧
      u'.nodeAt ["a.go"] = some (.link "b.go") := by
  have ha : IsAtTop "a.go" "a.go" := by decide
  have hb : IsAtTop "b.go" "b.go" := by decide
  have hlink : linked.nodeAt ["a.go"] = some (.link "b.go") := rfl
  have hfile : linked.nodeAt ["b.go"] = some (.file goFile 0o644) := rfl
  -- the link comes first: the file is read through it, and still lacks its header afterwards
  obtain ⟨u₁, hrun₁, hu₁, hbase₁⟩ :=
    fixFile_of_turn (turn_of_goFile (by decide) (ha.view_of_link rfl hlink hb hfile))
  have hfile₁ : u₁.nodeAt ["b.go"] = some (.file goFile 0o644) := by rw [hu₁]; exact hfile
  obtain ⟨u₂, hrun₂, hu₂, -⟩ :=
    fixFile_of_turn (turn_of_goFile (by decide) (hb.view_of_file hbase₁ hfile₁))
  -- the file comes first: its header is read through the link
  obtain ⟨v₁, hrun₁', hv₁, hbase₁'⟩ :=
    fixFile_of_turn (turn_of_goFile (by decide) (hb.view_of_file rfl hfile))
  have hfile₁' : v₁.nodeAt ["b.go"] = some (.file goFixed 0o644) := by rw [hv₁]; rfl
  have hlink₁' : v₁.nodeAt ["a.go"] = some (.link "b.go") := by rw [hv₁]; exact hlink
  have hread : v₁.read "a.go" = .ok goFixed :=
    congrArg View.content (ha.view_of_link hbase₁' hlink₁' hb hfile₁')
  obtain ⟨v₂, hrun₂', hv₂, -⟩ := fixFile_of_turn (turn_of_goFixed (by decide) hread)
  refine ⟨u₂, v₂, ?_, ?_, ?_, ?_⟩
  · simp [fixFiles, hrun₁, hrun₂, FixReport.record, FixReport.empty]
  · rw [hu₂]
    show Function.update u₁.nodeAt ["b.go"] _ ["a.go"] = _
    rw [Function.update_of_ne (by decide), hu₁]
    rfl
  · simp [fixFiles, hrun₁', hrun₂', FixReport.record, FixReport.empty]
  · rw [hv₂]
    exact hlink₁'

end Settings

end Letterhead
