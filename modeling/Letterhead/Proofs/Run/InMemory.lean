import Letterhead.Run.Check
import Letterhead.Proofs.Run.Fate
import Letterhead.Proofs.Run.Fix

/-!
On disk and in memory.

A file is read with its broken sequences, under the extension and the name that it counts under, and
its lines are written back as bytes. A text is brought to its normal form without any of this. The
two agree: if the bytes of the file are well-formed, a fix writes the bytes of the normal form of
their text, or fails as the normal form does, and a check finds what is wrong with the lines of the
text.
-/

namespace Letterhead

open Utf8

namespace Settings

variable {s : Settings} {obstacles : Obstacles} {t u : Tree} {path : String} {bs : Bytes}
  {text : Text} {src : Source}

/-! ### The file and its text -/

/-- The normal form of a text under the extension and the name of a file, if nothing stops the
search for it. -/
def inMemory (s : Settings) (src : Source) (text : Text) : Except Stop (Text × Normalized) :=
  let name := nameOr src.extension (some src.name)
  s.unlessHalted (Lines.ofText text).all src.extension name
    (s.normalizeText text src.extension name)

lemma nameOr_of_source? (hread : t.read path = .ok bs) (h : s.source? path bs = some src) :
    nameOr src.extension (some src.name) = src.name := by
  obtain ⟨ext, name, smart, rfl, hname⟩ := source?_cases h
  rw [nameOr, if_neg]
  rcases hname with rfl | rfl
  · obtain ⟨l, mode, hlocate, -⟩ := Tree.read_eq_ok_iff.mp hread
    exact (Tree.locate_eq_ok_iff.mp hlocate).1
  · simp [nameOr]

lemma inMemory_eq (hread : t.read path = .ok bs) (hsrc : s.source? path bs = some src) :
    s.inMemory src (decode bs) =
      (s.normalizeSource src).map fun n =>
        (if n.outcome.changes then Lines.join n.lines src.lines.ended else decode bs, n) := by
  rw [inMemory, normalizeText, normalizeSource, nameOr_of_source? hread hsrc,
    lines_of_source? hsrc, unlessHalted, unlessHalted]
  cases s.halt? (Lines.ofText (decode bs)).all src.extension src.name with
  | some e => rfl
  | none => cases s.normalize _ _ _ _ <;> rfl

/-! ### What a fix gives -/

/-- What a fix gives for a file without a normal form: an issue that reports the fault of its
header, or what stopped the search. -/
def failure (path : String) : Stop → Except Abort FileFix
  | .pattern e => .error (.stopped (.pattern e))
  | .template e =>
    match e.message? with
    | some m => .ok ⟨path, .skipped, some ⟨path, .configError, m⟩⟩
    | none => .error (.stopped (.template e))

lemma failure_cases (path : String) (e : Stop) :
    failure path e = .error (.stopped e) ∨
      ∃ m, failure path e = .ok ⟨path, .skipped, some ⟨path, .configError, m⟩⟩ := by
  cases e with
  | pattern e => exact .inl rfl
  | template e =>
    dsimp only [failure]
    cases e.message? with
    | none => exact .inl rfl
    | some m => exact .inr ⟨m, rfl⟩

section Fix

variable (hread : t.read path = .ok bs) (hsrc : s.source? path bs = some src)

include hread hsrc

lemma fixFile_of_error {e : Stop} (hn : s.normalizeSource src = .error e) :
    s.fixFile obstacles t path = (failure path e, t) := by
  rw [fixFile_of_source hread hsrc]
  unfold fixSource
  rw [hn, path_of_source? hsrc]
  cases e with
  | pattern e => rfl
  | template e =>
    dsimp only [failure]
    cases e.message? <;> rfl

variable {n : Normalized} (hn : s.normalizeSource src = .ok n)

include hn

lemma fixAt_ne_failure (e : Stop) : s.fixAt obstacles t path ≠ failure path e := by
  rw [fixAt_of_normalize hread hsrc hn]
  cases n.outcome.changes with
  | false => rcases failure_cases path e with h | ⟨m, h⟩ <;> simp [h]
  | true =>
    cases (src.render n.lines).isSome with
    | false => rcases failure_cases path e with h | ⟨m, h⟩ <;> simp [h]
    | true =>
      cases t.hindrance? path (obstacles.hinders path) <;>
        rcases failure_cases path e with h | ⟨m, h⟩ <;> simp [h]

lemma exists_fixAt_iff_of_normalize :
    (∃ f, s.fixAt obstacles t path = .ok f ∧ f.issue = none) ↔
      (n.outcome.changes = true →
        (src.render n.lines).isSome = true ∧
          t.hindrance? path (obstacles.hinders path) = none) := by
  rw [fixAt_of_normalize hread hsrc hn]
  cases n.outcome.changes with
  | false => simp
  | true =>
    cases (src.render n.lines).isSome with
    | false => simp
    | true => cases t.hindrance? path (obstacles.hinders path) <;> simp

end Fix

/-- **What is read after a fix without an issue** are the bytes of the normal form of the text. -/
lemma read_of_fixFile {f : FileFix} {n : Normalized} {new : Text}
    (hread : t.read path = .ok bs) (hsrc : s.source? path bs = some src)
    (hform : s.inMemory src (decode bs) = .ok (new, n))
    (h : s.fixFile obstacles t path = (.ok f, u)) (hissue : f.issue = none) :
    f.outcome = n.outcome ∧ ∃ data, encode new = some data ∧ u.read path = .ok data := by
  obtain ⟨n', hn, -, rfl, hu⟩ := normalize_of_fixFile hread hsrc h hissue
  rw [inMemory_eq hread hsrc, hn] at hform
  obtain ⟨rfl, rfl⟩ := Prod.mk.inj (Except.ok.inj hform)
  refine ⟨rfl, ?_⟩
  rcases hu with ⟨hch, rfl⟩ | ⟨hch, data, hdata, hreplace⟩
  · rw [if_neg (by simp [hch])]
    exact ⟨bs, encode_decode bs, hread⟩
  · rw [if_pos hch]
    rw [path_of_source? hsrc] at hreplace
    exact ⟨data, hdata, Tree.read_of_replaceFile hread hreplace⟩

/-- **On disk and in memory the same is done** with a file whose bytes are well-formed. If its text
has no normal form, a fix reports that or stops for it, and leaves the tree as it is; otherwise it
does neither. A fix without an issue has the outcome that the text has, and leaves the
bytes of its normal form, which are read as this form unless there are strays in it. And there is no
issue just if a text that changes has bytes, and nothing keeps them from being written. What a check
finds in a file that is not empty is what it finds in the lines of the text. -/
theorem fixFile_agrees_in_memory (obstacles : Obstacles) (hread : t.read path = .ok bs)
    (hutf8 : decode? bs = some text) (hsrc : s.source? path bs = some src) :
    (∃ r u, s.fixFile obstacles t path = (r, u) ∧
      (∀ e, s.inMemory src text = .error e → r = failure path e ∧ u = t) ∧
      ∀ new n, s.inMemory src text = .ok (new, n) →
        (∀ e, r ≠ failure path e) ∧
        (∀ f, r = .ok f → f.issue = none → f.outcome = n.outcome ∧
          ∃ data, encode new = some data ∧ u.read path = .ok data ∧
            (decode? data = some new ↔ ∀ c ∈ new, c.isStray = false)) ∧
        ((∃ f, r = .ok f ∧ f.issue = none) ↔
          (n.outcome.changes = true →
            (encode new).isSome = true ∧ t.hindrance? path (obstacles.hinders path) = none))) ∧
      (bs ≠ [] →
        s.checkFile t path =
          s.unlessHalted (Lines.ofText text).all src.extension
            (nameOr src.extension (some src.name))
            (s.checkLines path (Lines.ofText text).all src.extension
              (nameOr src.extension (some src.name)))) := by
  obtain ⟨rfl, -⟩ := decode?_eq_some_iff.mp hutf8
  constructor
  · cases hn : s.normalizeSource src with
    | error e =>
      refine ⟨_, _, fixFile_of_error hread hsrc hn, fun e' he' => ?_, fun new n h => ?_⟩
      · rw [inMemory_eq hread hsrc, hn] at he'
        cases he'
        exact ⟨rfl, rfl⟩
      · rw [inMemory_eq hread hsrc, hn] at h
        cases h
    | ok n =>
      obtain ⟨u, hfix, -⟩ := s.fixFile_eq obstacles t path
      refine ⟨_, u, hfix, fun e he => ?_, fun new n' h => ⟨?_, fun f hf hissue => ?_, ?_⟩⟩
      · rw [inMemory_eq hread hsrc, hn] at he
        cases he
      · exact fixAt_ne_failure hread hsrc hn
      · rw [hf] at hfix
        obtain ⟨houtcome, data, hdata, hnew⟩ := read_of_fixFile hread hsrc h hfix hissue
        exact ⟨houtcome, data, hdata, hnew, decode?_eq_some_iff_of_encode hdata⟩
      · rw [inMemory_eq hread hsrc, hn] at h
        obtain ⟨rfl, rfl⟩ := Prod.mk.inj (Except.ok.inj h)
        rw [exists_fixAt_iff_of_normalize hread hsrc hn]
        refine forall_congr' fun hch => ?_
        rw [if_pos hch]
        rfl
  · intro hne
    have hname := nameOr_of_source? hread hsrc
    obtain ⟨ext, name, smart, rfl, -⟩ := source?_cases hsrc
    unfold checkFile
    rw [hread]
    dsimp only
    rw [hsrc, hname]
    dsimp only
    rw [checkSource, if_neg (by simpa using hne)]

/-- A folder with a file of Go in it. -/
def goFolder : Tree := .ofFolder [("a.go", .file goFile 0o644)]

/-- The file gets its header, and its text does. -/
theorem goFile_agrees_in_memory :
    decode? goFile = some (decode goFile) ∧
      (∃ f u, plain.fixFile unhindered goFolder "a.go" = (.ok f, u) ∧ f.issue = none ∧
        f.outcome = .added ∧ u.read "a.go" = .ok goFixed) ∧
      plain.checkFile goFolder "a.go" =
        (plain.checkLines "a.go" (Lines.ofText (decode goFile)).all ".go" "a.go").mapError
          .template := by
  have ha : Tree.IsAtTop "a.go" "a.go" := by decide
  have hview : goFolder.view "a.go" (unhindered.hinders "a.go") =
      ⟨.ok goFile, .ok 0o644, .ok ["a.go"], none⟩ := ha.view_of_file rfl rfl
  have hutf8 : decode? goFile = some (decode goFile) := by decide
  have hext : plain.effectiveExtension "a.go" = (".go", false) := by decide
  have hsrc := source?_plain hext goFile
  have hread : goFolder.read "a.go" = .ok goFile := congrArg Tree.View.content hview
  have hform := inMemory_eq hread hsrc
  rw [normalizeSource_goFile] at hform
  obtain ⟨⟨r, u, hfix, -, hok⟩, hcheck⟩ := fixFile_agrees_in_memory unhindered hread hutf8 hsrc
  obtain ⟨-, hdone, hiff⟩ := hok _ _ hform
  obtain ⟨f, rfl, hissue⟩ :=
    hiff.mpr fun _ => ⟨by decide, congrArg Tree.View.hindrance hview⟩
  obtain ⟨houtcome, data, hdata, hnew, -⟩ := hdone f rfl hissue
  have hfixed : data = goFixed := Option.some.inj (hdata.symm.trans (by decide))
  refine ⟨hutf8, ⟨f, u, hfix, hissue, houtcome, hfixed ▸ hnew⟩, ?_⟩
  rw [hcheck (by decide), unlessHalted_of_not_halt? (halt?_plain ..)]
  rfl

end Settings

end Letterhead
