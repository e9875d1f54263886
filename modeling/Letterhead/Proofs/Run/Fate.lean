import Letterhead.Proofs.Run.Fix
import Letterhead.Proofs.Header.Rebuild
import Letterhead.Proofs.Source
import Letterhead.Proofs.Tree.View

/-!
What one fix does, told by what is seen of the tree at the path.

The outcome, the issue and the bytes that are written follow from the view of the tree at the path
alone; the tree afterwards has the bytes in one place, or the nodes that it had.
-/

namespace Letterhead

/-- The file was changed. -/
def FileFix.IsChange (f : FileFix) : Prop := f.issue = none ∧ f.outcome.changes = true

instance (f : FileFix) : Decidable f.IsChange :=
  inferInstanceAs (Decidable (f.issue = none ∧ f.outcome.changes = true))

/-- The file counts under an outcome. -/
def FileFix.counts (f : FileFix) (o : Outcome) : Bool := f.issue.isNone && f.outcome = o

lemma FixReport.foldl_record (fs : List FileFix) (r : FixReport) :
    fs.foldl FixReport.record r =
      ⟨r.fixed + fs.countP (·.counts .fixed), r.added + fs.countP (·.counts .added),
        r.errors ++ fs.filterMap (·.issue)⟩ := by
  induction fs generalizing r with
  | nil => simp
  | cons f fs ih =>
    obtain ⟨path, outcome, _ | i⟩ := f
    · rw [List.foldl_cons, ih]
      cases outcome <;> simp [record, FileFix.counts] <;> omega
    · rw [List.foldl_cons, ih]
      simp [record, FileFix.counts]

open Letterhead.Tree

/-! ### What is written -/

/-- The nodes with one of them put in, if there is one. -/
def writeNode (nodes : Location → Option Node) : Option (Location × Node) → Location → Option Node
  | some (place, n) => Function.update nodes place (some n)
  | none => nodes

/-- The tree after a file was written, or after nothing was. -/
def Tree.Becomes (t u : Tree) : Option (Location × Node) → Prop
  | some (place, n) => ∃ data mode, n = .file data mode ∧ t.Rewrites u place data mode
  | none => u.IsSame t

lemma Tree.Becomes.nodeAt {t u : Tree} {change : Option (Location × Node)}
    (h : t.Becomes u change) : u.nodeAt = writeNode t.nodeAt change := by
  rcases change with _ | ⟨place, n⟩
  · exact IsSame.nodeAt h
  · obtain ⟨data, mode, rfl, hrewrites⟩ := h
    exact hrewrites.nodeAt

lemma Tree.Becomes.base {t u : Tree} {change : Option (Location × Node)}
    (h : t.Becomes u change) : u.base = t.base := by
  rcases change with _ | ⟨place, n⟩
  · exact IsSame.base h
  · obtain ⟨data, mode, rfl, hrewrites⟩ := h
    exact hrewrites.base

namespace Settings

variable {s : Settings} {describe : IoError → String} {path : String} {v : View}

/-! ### What becomes of a file -/

lemma path_of_source? {bs : Bytes} {src : Source} (h : s.source? path bs = some src) :
    src.path = path := by
  obtain ⟨ext, name, smart, rfl, -⟩ := source?_cases h
  rfl

/-- What becomes of the file at a path, and the bytes that are written. `describe` is what is told
if they cannot be. -/
def fate (s : Settings) (describe : IoError → String) (path : String) (v : View) :
    Except Abort (FileFix × Option Bytes) :=
  let skipped (kind : IssueKind) (detail : String) : Except Abort (FileFix × Option Bytes) :=
    .ok (⟨path, .skipped, some ⟨path, kind, detail⟩⟩, none)
  match v.content with
  | .error e => skipped .unreadable (e.message path)
  | .ok bs =>
    match s.source? path bs with
    | none => .ok (⟨path, .skipped, none⟩, none)
    | some src =>
      match s.normalizeSource src with
      | .error (.pattern e) => .error (.stopped (.pattern e))
      | .error (.template e) =>
        match e.message? with
        | some m => skipped .configError m
        | none => .error (.stopped (.template e))
      | .ok n =>
        if !n.outcome.changes then .ok (⟨path, n.outcome, none⟩, none)
        else
          match src.render n.lines with
          | none => .error .notEncodable
          | some data =>
            match v.hindrance with
            | some e => skipped .unwritable (describe e)
            | none => .ok (⟨path, n.outcome, none⟩, some data)

/-- The node that comes in, and where. -/
def change? (s : Settings) (describe : IoError → String) (path : String) (v : View) :
    Option (Location × Node) :=
  match s.fate describe path v, v.place, v.mode with
  | .ok (_, some data), .ok place, .ok mode => some (place, .file data mode)
  | _, _, _ => none

/-- What becomes of the file at a path, as the tree tells. -/
def fixAt (s : Settings) (obstacles : Obstacles) (t : Tree) (path : String) :
    Except Abort FileFix :=
  (s.fate (obstacles.describe path) path (t.view path (obstacles.hinders path))).map Prod.fst

/-- What is written for a path, as the tree tells. -/
def changeAt (s : Settings) (obstacles : Obstacles) (t : Tree) (path : String) :
    Option (Location × Node) :=
  s.change? (obstacles.describe path) path (t.view path (obstacles.hinders path))

/-- The bytes of the normalized lines of a file. -/
def NormalizesTo (s : Settings) (path : String) (bs : Bytes) (outcome : Outcome) (data : Bytes) :
    Prop :=
  ∃ src n, s.source? path bs = some src ∧
    s.normalize src.lines.all src.extension src.name src.lines.lineEnd = .ok n ∧
    n.outcome = outcome ∧ src.render n.lines = some data

lemma fate_cases {f : FileFix} {w : Option Bytes} (h : s.fate describe path v = .ok (f, w)) :
    f.path = path ∧ (∀ i ∈ f.issue, i.file = path) ∧
      (w = none ∧ ¬ f.IsChange ∨
        ∃ bs data, w = some data ∧ f.IsChange ∧ v.content = .ok bs ∧
          s.NormalizesTo path bs f.outcome data) := by
  unfold fate at h
  dsimp only at h
  cases hcontent : v.content with
  | error e =>
    rw [hcontent] at h
    cases h
    simp [FileFix.IsChange]
  | ok bs =>
    rw [hcontent] at h
    dsimp only at h
    split at h
    · cases h
      simp [FileFix.IsChange, Outcome.changes]
    · next src hsrc =>
      split at h
      · cases h
      · split at h
        · cases h
          simp [FileFix.IsChange]
        · cases h
      · next n hn =>
        have hn := (normalizeSource_eq_ok_iff.mp hn).2
        split at h
        · next hch =>
          cases h
          simpa [FileFix.IsChange] using hch
        · next hch =>
          rw [Bool.not_eq_true', Bool.not_eq_false] at hch
          split at h
          · cases h
          · next data hdata =>
            split at h
            · cases h
              simp [FileFix.IsChange]
            · cases h
              exact ⟨rfl, by simp, .inr ⟨bs, data, rfl, ⟨rfl, hch⟩, rfl, src, n, hsrc, hn, rfl,
                hdata⟩⟩

lemma fixAt_of_normalize {obstacles : Obstacles} {t : Tree} {bs : Bytes} {src : Source}
    {n : Normalized} (hread : t.read path = .ok bs) (hsrc : s.source? path bs = some src)
    (hn : s.normalizeSource src = .ok n) :
    s.fixAt obstacles t path =
      if n.outcome.changes then
        if (src.render n.lines).isSome then
          match t.hindrance? path (obstacles.hinders path) with
          | some e => .ok ⟨path, .skipped, some ⟨path, .unwritable, obstacles.describe path e⟩⟩
          | none => .ok ⟨path, n.outcome, none⟩
        else .error .notEncodable
      else .ok ⟨path, n.outcome, none⟩ := by
  unfold fixAt fate
  dsimp only [Tree.view]
  rw [hread]
  dsimp only
  rw [hsrc]
  dsimp only
  rw [hn]
  dsimp only
  cases n.outcome.changes with
  | false => rfl
  | true =>
    cases src.render n.lines with
    | none => rfl
    | some data => cases t.hindrance? path (obstacles.hinders path) <;> rfl

/-- **One fix** gives what the view of the tree at the path tells, and writes what it tells. -/
theorem fixFile_eq (s : Settings) (obstacles : Obstacles) (t : Tree) (path : String) :
    ∃ u, s.fixFile obstacles t path = (s.fixAt obstacles t path, u) ∧
      t.Becomes u (s.changeAt obstacles t path) := by
  unfold fixAt changeAt change? fate fixFile
  dsimp only [view]
  cases hread : t.read path with
  | error e => exact ⟨t, rfl, .refl t⟩
  | ok bs =>
    dsimp only
    cases hsrc : s.source? path bs with
    | none => exact ⟨t, rfl, .refl t⟩
    | some src =>
      dsimp only
      unfold fixSource
      rw [path_of_source? hsrc]
      dsimp only
      rcases s.normalizeSource src with (e | e) | n
      · exact ⟨t, rfl, .refl t⟩
      · dsimp only
        cases e.message? with
        | some m => exact ⟨t, rfl, .refl t⟩
        | none => exact ⟨t, rfl, .refl t⟩
      · dsimp only
        cases n.outcome.changes with
        | false => exact ⟨t, rfl, .refl t⟩
        | true =>
          cases src.render n.lines with
          | none => exact ⟨t, rfl, .refl t⟩
          | some data =>
            obtain ⟨u, hu⟩ := replaceFile_eq (obstacles.hinders path) hread data
            refine ⟨u, ?_⟩
            cases hhindrance : t.hindrance? path (obstacles.hinders path) with
            | some e =>
              rw [hhindrance] at hu
              exact ⟨by simp [hu.1, Except.map], hu.2⟩
            | none =>
              rw [hhindrance] at hu
              obtain ⟨hdone, place, mode, hplace, hmode, hrewrites⟩ := hu
              simp only [Bool.not_true, Bool.false_eq_true, if_false, hdone, hplace, hmode]
              exact ⟨rfl, data, mode, rfl, hrewrites⟩

lemma change?_eq_some_iff {place : Location} {n : Node} :
    s.change? describe path v = some (place, n) ↔
      ∃ f data mode, s.fate describe path v = .ok (f, some data) ∧ v.place = .ok place ∧
        v.mode = .ok mode ∧ n = .file data mode := by
  unfold change?
  constructor
  · intro h
    split at h
    · next f data place' mode hfate hplace hmode =>
      cases h
      exact ⟨f, data, mode, hfate, hplace, hmode, rfl⟩
    · cases h
  · rintro ⟨f, data, mode, hfate, hplace, hmode, rfl⟩
    rw [hfate, hplace, hmode]

lemma fixFile_cases {obstacles : Obstacles} {t u : Tree} {f : FileFix}
    (h : s.fixFile obstacles t path = (.ok f, u)) :
    f.path = path ∧ (∀ i ∈ f.issue, i.file = path) ∧
      (¬ f.IsChange ∧ u.IsSame t ∨
        f.IsChange ∧ ∃ bs data place mode, t.read path = .ok bs ∧
          s.NormalizesTo path bs f.outcome data ∧ t.locate path false = .ok place ∧
          t.modeAt path = .ok mode ∧ t.Rewrites u place data mode) := by
  obtain ⟨u', hfix, hu⟩ := s.fixFile_eq obstacles t path
  obtain ⟨hfate, rfl⟩ := Prod.mk.inj (h.symm.trans hfix)
  cases hfate' : s.fate (obstacles.describe path) path (t.view path (obstacles.hinders path)) with
  | error e =>
    rw [fixAt, hfate'] at hfate
    cases hfate
  | ok r =>
    obtain ⟨f', w⟩ := r
    rw [fixAt, hfate'] at hfate
    obtain rfl : f = f' := Except.ok.inj hfate
    obtain ⟨hpath, hissue, ⟨rfl, hno⟩ | ⟨bs, data, rfl, hch, hread, hnormal⟩⟩ := fate_cases hfate'
    · refine ⟨hpath, hissue, .inl ⟨hno, ?_⟩⟩
      rw [changeAt, change?, hfate'] at hu
      exact hu
    · obtain ⟨l, mode, place, -, -, hmode, hplace, -⟩ := exists_of_read hread
      refine ⟨hpath, hissue, .inr ⟨hch, bs, data, place, mode, hread, hnormal, hplace, hmode, ?_⟩⟩
      rw [changeAt, change?_eq_some_iff.mpr ⟨f, data, mode, hfate', hplace, hmode, rfl⟩] at hu
      obtain ⟨data', mode', heq, hrewrites⟩ := hu
      cases heq
      exact hrewrites

lemma fixFile_of_turn {obstacles : Obstacles} {t : Tree} {f : FileFix}
    {change : Option (Location × Node)}
    (h : s.fixAt obstacles t path = .ok f ∧ s.changeAt obstacles t path = change) :
    ∃ u, s.fixFile obstacles t path = (.ok f, u) ∧ u.nodeAt = writeNode t.nodeAt change ∧
      u.base = t.base := by
  obtain ⟨u, hfix, hu⟩ := s.fixFile_eq obstacles t path
  exact ⟨u, h.1 ▸ hfix, h.2 ▸ hu.nodeAt, hu.base⟩

/-! ### Turns that are told by their fate -/

section Turn

variable {obstacles : Obstacles} {t : Tree} {f : FileFix}

lemma turn_of_write {data : Bytes} {place : Location} {mode : Nat}
    (hfate : s.fate (obstacles.describe path) path (t.view path (obstacles.hinders path)) =
      .ok (f, some data))
    (hplace : t.locate path false = .ok place) (hmode : t.modeAt path = .ok mode) :
    s.fixAt obstacles t path = .ok f ∧
      s.changeAt obstacles t path = some (place, .file data mode) := by
  refine ⟨by rw [fixAt, hfate]; rfl, ?_⟩
  exact change?_eq_some_iff.mpr ⟨f, data, mode, hfate, hplace, hmode, rfl⟩

lemma turn_of_no_write
    (hfate : s.fate (obstacles.describe path) path (t.view path (obstacles.hinders path)) =
      .ok (f, none)) :
    s.fixAt obstacles t path = .ok f ∧ s.changeAt obstacles t path = none := by
  rw [fixAt, changeAt, change?, hfate]
  exact ⟨rfl, rfl⟩

lemma turn_of_unreadable (s : Settings) (obstacles : Obstacles) {e : IoError}
    (hread : t.read path = .error e) :
    s.fixAt obstacles t path =
        .ok ⟨path, .skipped, some ⟨path, .unreadable, e.message path⟩⟩ ∧
      s.changeAt obstacles t path = none :=
  turn_of_no_write (by rw [fate, view, hread])

lemma fate_of_render {bs data : Bytes} {src : Source} {n : Normalized}
    (hcontent : v.content = .ok bs) (hsrc : s.source? path bs = some src)
    (hn : s.normalizeSource src = .ok n) (hch : n.outcome.changes = true)
    (hdata : src.render n.lines = some data) (hfree : v.hindrance = none) :
    s.fate describe path v = .ok (⟨path, n.outcome, none⟩, some data) := by
  simp [fate, hcontent, hsrc, hn, hch, hdata, hfree]

end Turn

/-! ### A file of Go -/

/-- Settings under which files of Go carry a header of one line. -/
def plain : Settings :=
  { Settings.default 2025 with
    copyright := { Copyright.default 2025 with holder := "ACME" }
    files := { Files.default with extensions := [".go"] } }

def ascii (text : String) : Bytes := text.toList.map fun c => UInt8.ofNat c.toNat

def goFile : Bytes := ascii "package a\n"

def goFixed : Bytes := ascii "// Copyright ACME 2025\n\npackage a\n"

/-- What is found in the file, without its header and with it. -/
def goScan (kinds : List LineKind) : Scan :=
  ⟨⟨.line "//", "// Copyright ACME 2025", none⟩, 0, kinds⟩

lemma render_plain_go : Header.render plain ".go" = .ok (goScan []).header := by cbv

/-- Nothing outside the tree keeps a file from being replaced. -/
def unhindered : Obstacles := ⟨fun _ _ => none, fun path e => e.message path⟩

lemma halt?_plain (ls : List Text) (ext filename : String) :
    plain.halt? ls ext filename = none :=
  halt?_eq_none (fun _ hp => absurd hp List.not_mem_nil) ls ext filename

lemma inspect_goFile : plain.inspect (Lines.ofText (Utf8.decode goFile)).all ".go" path =
    .ok (goScan [.content]) :=
  plain.inspect_eq_ok_iff.mpr ⟨render_plain_go, rfl, by decide⟩

/-- A file of Go as it is read. -/
def goSource (path : String) (bs : Bytes) : Source :=
  ⟨path, bs, Lines.ofText (Utf8.decode bs), ".go", path, false⟩

lemma normalizeSource_goFile : plain.normalizeSource (goSource path goFile) =
    .ok ⟨["// Copyright ACME 2025", "", "package a"], .added, some (goScan [.content])⟩ := by
  refine normalizeSource_eq_ok_iff.mpr ⟨halt?_plain .., ?_⟩
  have hi : plain.inspect (Lines.ofText (Utf8.decode goFile)).all ".go" path =
      .ok (goScan [.content]) := inspect_goFile
  have hn := plain.normalize_of_incorrect (e := (Lines.ofText (Utf8.decode goFile)).lineEnd)
    (by decide) hi (by decide)
  have hnew : plain.rebuild (goScan [.content]) (Lines.ofText (Utf8.decode goFile)).all
      (Lines.ofText (Utf8.decode goFile)).lineEnd =
        (["// Copyright ACME 2025", "", "package a"] : List Text) := by decide
  rwa [hnew, if_neg (by decide)] at hn

lemma normalizeSource_goFixed : plain.normalizeSource (goSource path goFixed) =
    .ok ⟨["// Copyright ACME 2025", "", "package a"], .unchanged,
      some (goScan [.copyright, .content, .content])⟩ := by
  refine normalizeSource_eq_ok_iff.mpr ⟨halt?_plain .., ?_⟩
  have hi : plain.inspect (Lines.ofText (Utf8.decode goFixed)).all ".go" path =
      .ok (goScan [.copyright, .content, .content]) :=
    plain.inspect_eq_ok_iff.mpr ⟨render_plain_go, rfl, by decide⟩
  have hlines : (Lines.ofText (Utf8.decode goFixed)).all =
      (["// Copyright ACME 2025", "", "package a"] : List Text) := by decide
  have hn := plain.normalize_of_correct (e := (Lines.ofText (Utf8.decode goFixed)).lineEnd)
    (by decide) hi (by decide)
  rwa [hlines] at hn

section Go

variable (hext : plain.effectiveExtension path = (".go", false))

include hext

lemma source?_plain (bs : Bytes) : plain.source? path bs = some (goSource path bs) := by
  unfold source?
  rw [hext]
  rfl

lemma fate_goFile (hcontent : v.content = .ok goFile) (hfree : v.hindrance = none) :
    plain.fate describe path v = .ok (⟨path, .added, none⟩, some goFixed) :=
  fate_of_render hcontent (source?_plain hext goFile) normalizeSource_goFile rfl rfl hfree

lemma fate_goFixed (hcontent : v.content = .ok goFixed) :
    plain.fate describe path v = .ok (⟨path, .unchanged, none⟩, none) := by
  simp [fate, hcontent, source?_plain hext, normalizeSource_goFixed, Outcome.changes]

variable {t : Tree}

lemma turn_of_goFile {mode : Nat} {place : Location}
    (hview : t.view path (unhindered.hinders path) = ⟨.ok goFile, .ok mode, .ok place, none⟩) :
    plain.fixAt unhindered t path = .ok ⟨path, .added, none⟩ ∧
      plain.changeAt unhindered t path = some (place, .file goFixed mode) := by
  have hfate : plain.fate (unhindered.describe path) path
      (t.view path (unhindered.hinders path)) = .ok (⟨path, .added, none⟩, some goFixed) :=
    fate_goFile hext (by rw [hview]) (by rw [hview])
  exact turn_of_write hfate (congrArg View.place hview) (congrArg View.mode hview)

lemma turn_of_goFixed (hcontent : t.read path = .ok goFixed) :
    plain.fixAt unhindered t path = .ok ⟨path, .unchanged, none⟩ ∧
      plain.changeAt unhindered t path = none :=
  turn_of_no_write (fate_goFixed (v := t.view path (unhindered.hinders path)) hext hcontent)

end Go

end Settings

end Letterhead
