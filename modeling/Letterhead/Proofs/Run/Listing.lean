import Letterhead.Proofs.Selection
import Letterhead.Proofs.Tree.Tracked
import Letterhead.Proofs.Tree.Walk
import Letterhead.Proofs.Run.Fate

/-!
The two ways to list the files of a run: through the folders, and from a repository.

Where all files are tracked, both lists have the same files, one with `./` in front. But a name with
characters that are not plain stands in quotes in the listing of the repository, and is then taken
for the name of another file.
-/

namespace Letterhead

open Letterhead.Tree

namespace Settings

/-- The settings with the one way to list files or the other. -/
def listing (s : Settings) (tracked : Bool) : Settings :=
  { s with files := { s.files with gitTracked := tracked } }

@[simp] lemma selects_listing (s : Settings) (tracked : Bool) :
    (s.listing tracked).selects = s.selects := rfl

end Settings

namespace Project

variable {p : Project} {s : Settings} {tracked files chosen : List String} {f : String}

/-! ### The files that are meant -/

lemma mem_select (h : select s files = .ok chosen) :
    f ∈ chosen ↔ f ∈ files ∧ s.selects f = .ok true := by
  induction files generalizing chosen with
  | nil =>
    obtain rfl := Except.ok.inj h
    simp
  | cons g files ih =>
    rw [select] at h
    split at h
    · next chosen' hg =>
      obtain ⟨more, hmore, h⟩ := bind_eq_ok_iff.mp h
      obtain rfl := Except.ok.inj h
      have hmore := ih hmore
      by_cases hf : f = g
      · subst hf
        cases chosen' <;> simp [hmore, hg]
      · cases chosen' <;> simp [hmore, hf]
    · cases h

lemma exists_select_iff :
    (∃ chosen, select s files = .ok chosen) ↔ ∀ f ∈ files, ∃ b, s.selects f = .ok b := by
  induction files with
  | nil => simp [select]
  | cons g files ih =>
    rw [List.forall_mem_cons, ← ih, select]
    cases s.selects g with
    | error e => simp
    | ok b =>
      constructor
      · rintro ⟨chosen, h⟩
        obtain ⟨more, hmore, -⟩ := bind_eq_ok_iff.mp h
        exact ⟨⟨b, rfl⟩, more, hmore⟩
      · rintro ⟨-, more, hmore⟩
        exact ⟨_, bind_eq_ok_iff.mpr ⟨more, hmore, rfl⟩⟩

/-! ### The two lists -/

/-- In the folder of the run lie regular files, all of which are tracked. What lies in a hidden
folder is none of them. -/
structure IsAllTracked (p : Project) (tracked : List String) : Prop where
  proper : p.tree.IsProper
  linkless : ∀ l target, p.tree.nodeAt (p.tree.base ++ l) ≠ some (.link target)
  listed : p.tracked = some tracked
  mem_iff : ∀ path, path ∈ tracked ↔ ∃ l, path = "/".intercalate l ∧ Tree.hidden ∉ l.dropLast ∧
    ∃ data mode, p.tree.nodeAt (p.tree.base ++ l) = some (.file data mode)

lemma below_point {l : Location} (hne : l ≠ []) :
    Path.below "." l = "./" ++ "/".intercalate l := by
  obtain ⟨name, l, rfl⟩ := List.exists_cons_of_ne_nil hne
  rw [Path.below, if_neg (by decide), String.intercalate_cons_cons]
  rfl

lemma IsAllTracked.files_folders (h : p.IsAllTracked tracked) :
    ∃ files, p.files (s.listing false) "." = .ok files ∧
      ∀ f, f ∈ files ↔ ∃ g ∈ tracked, "./" ++ g = f := by
  obtain ⟨cs, hat⟩ := nodeAt_eq_folder_iff.mp p.tree.nodeAt_base
  have hpath : (Path.ofString ".").toString = "." := by decide
  have hfiles : p.tree.filesAt? "." = .ok (some (p.tree.filesBelow "." p.tree.base)) := by
    unfold filesAt?
    dsimp only
    rw [hpath, locate_point]
    dsimp only
    rw [hat]
  refine ⟨p.tree.filesBelow "." p.tree.base, ?_, fun f => ?_⟩
  · rw [files, if_neg (by simp [Settings.listing]), hfiles]
  rw [filesBelow, hat]
  simp only [List.mem_map, h.mem_iff]
  have hiff : ∀ {l : Location}, l ≠ [] →
      (p.tree.base ++ l ∈ filesIn p.tree p.tree.base (.folder cs) ↔ Tree.hidden ∉ l.dropLast ∧
        ∃ data mode, p.tree.nodeAt (p.tree.base ++ l) = some (.file data mode)) :=
    fun hne => mem_filesIn_iff h.proper h.linkless hat hne
  constructor
  · rintro ⟨l, hl, rfl⟩
    obtain ⟨names, hne, rfl, -⟩ := mem_filesIn h.proper hat hl
    rw [List.drop_left]
    exact ⟨_, ⟨_, rfl, (hiff hne).mp hl⟩, (below_point hne).symm⟩
  · rintro ⟨g, ⟨l, rfl, hhidden, data, mode, hfile⟩, rfl⟩
    have hne : l ≠ [] := by
      rintro rfl
      rw [List.append_nil, p.tree.nodeAt_base] at hfile
      cases hfile
    refine ⟨_, (hiff hne).mpr ⟨hhidden, data, mode, hfile⟩, ?_⟩
    rw [List.drop_left, below_point hne]

lemma IsAllTracked.files_tracked (h : p.IsAllTracked tracked) :
    ∃ files, p.files (s.listing true) "." = .ok files ∧
      ∀ f, f ∈ files ↔ ∃ g ∈ tracked, quotedName g = f := by
  refine ⟨(tracked.mergeSort isBefore).map quotedName, ?_, fun f => by simp⟩
  rw [files, if_pos (by simp [Settings.listing]), trackedAt?_point h.listed]

lemma candidates_of_files {path : String} (h : p.files s path = .ok files) :
    p.candidates s path = select s files := by
  rw [candidates, h]
  rfl

section Lists

variable (h : p.IsAllTracked tracked)

include h

lemma IsAllTracked.mem_folders (hcandidates : p.candidates (s.listing false) "." = .ok chosen) :
    f ∈ chosen ↔ ∃ g ∈ tracked, "./" ++ g = f ∧ s.selects f = .ok true := by
  obtain ⟨files, hfiles, hmem⟩ := h.files_folders (s := s)
  rw [candidates_of_files hfiles] at hcandidates
  rw [mem_select hcandidates, hmem, s.selects_listing]
  simp only [exists_and_right, ← and_assoc]

lemma IsAllTracked.mem_tracked (hcandidates : p.candidates (s.listing true) "." = .ok chosen) :
    f ∈ chosen ↔ ∃ g ∈ tracked, quotedName g = f ∧ s.selects f = .ok true := by
  obtain ⟨files, hfiles, hmem⟩ := h.files_tracked (s := s)
  rw [candidates_of_files hfiles] at hcandidates
  rw [mem_select hcandidates, hmem, s.selects_listing]
  simp only [exists_and_right, ← and_assoc]

lemma IsAllTracked.exists_folders_iff :
    (∃ chosen, p.candidates (s.listing false) "." = .ok chosen) ↔
      ∀ g ∈ tracked, ∃ b, s.selects ("./" ++ g) = .ok b := by
  obtain ⟨files, hfiles, hmem⟩ := h.files_folders (s := s)
  simp only [candidates_of_files hfiles, exists_select_iff, hmem, s.selects_listing,
    forall_exists_index, and_imp, forall_apply_eq_imp_iff₂]

lemma IsAllTracked.exists_tracked_iff :
    (∃ chosen, p.candidates (s.listing true) "." = .ok chosen) ↔
      ∀ g ∈ tracked, ∃ b, s.selects (quotedName g) = .ok b := by
  obtain ⟨files, hfiles, hmem⟩ := h.files_tracked (s := s)
  simp only [candidates_of_files hfiles, exists_select_iff, hmem, s.selects_listing,
    forall_exists_index, and_imp, forall_apply_eq_imp_iff₂]

end Lists

/-! ### Files that both lists have -/

/-- The lists have the same files, in any order. -/
def SameFiles (ws gs : List String) : Prop := ∀ w, w ∈ ws ↔ ∃ f ∈ gs, "./" ++ f = w

/-- A tracked file is meant in both lists or in none. With a plain name, it is meant without `./` if
it is meant with it. With another name it is not meant, and neither is its name in quotes. -/
structure IsListedAlike (s : Settings) (f : String) : Prop where
  plain : IsPlainName f → s.selects ("./" ++ f) = .ok true → s.selects f = .ok true
  other : ¬ IsPlainName f →
    s.selects ("./" ++ f) ≠ .ok true ∧ s.selects (quotedName f) ≠ .ok true

lemma IsListedAlike.of_plain (hplain : IsPlainName f) (hpoint : ¬ s.TakesPoint f) :
    IsListedAlike s f :=
  ⟨fun _ h => Settings.selects_point hpoint ▸ h, fun hother => absurd hplain hother⟩

/-- **When both ways to list files agree.** If all names are plain, and no configured suffix takes
in the slash in front of one, one way gives a result if the other one does. Where both do, they have
the same files if each tracked file is listed alike, and only then, unless a file happens to have
the name that another one has in quotes. -/
theorem candidates_alike (h : p.IsAllTracked tracked) (s : Settings) :
    ((∀ f ∈ tracked, IsPlainName f ∧ ¬ s.TakesPoint f) →
      ((∃ ws, p.candidates (s.listing false) "." = .ok ws) ↔
        ∃ gs, p.candidates (s.listing true) "." = .ok gs)) ∧
    ∀ ws gs, p.candidates (s.listing false) "." = .ok ws →
      p.candidates (s.listing true) "." = .ok gs →
      ((∀ f ∈ tracked, IsListedAlike s f) → SameFiles ws gs) ∧
      ((∀ f ∈ tracked, quotedName f ∈ tracked → IsPlainName f) →
        SameFiles ws gs → ∀ f ∈ tracked, IsListedAlike s f) := by
  refine ⟨fun hall => ?_, fun ws gs hws hgs => ⟨fun halike w => ?_, fun hnames hsame f hf => ?_⟩⟩
  · rw [h.exists_folders_iff, h.exists_tracked_iff]
    refine forall₂_congr fun g hg => ?_
    rw [quotedName_eq_self_iff.mpr (hall g hg).1, Settings.selects_point (hall g hg).2]
  · rw [h.mem_folders hws]
    simp only [h.mem_tracked hgs]
    constructor
    · rintro ⟨g, hg, rfl, hchosen⟩
      have hplain : IsPlainName g := by
        by_contra hother
        exact ((halike g hg).other hother).1 hchosen
      exact ⟨g, ⟨g, hg, quotedName_eq_self_iff.mpr hplain, (halike g hg).plain hplain hchosen⟩, rfl⟩
    · rintro ⟨-, ⟨g, hg, rfl, hchosen⟩, rfl⟩
      have hplain : IsPlainName g := by
        by_contra hother
        exact ((halike g hg).other hother).2 hchosen
      rw [quotedName_eq_self_iff.mpr hplain] at hchosen ⊢
      exact ⟨g, hg, rfl, Settings.selects_point_of_selects hchosen⟩
  · have hiff : ∀ f, "./" ++ f ∈ ws ↔ f ∈ gs := fun f => by simp [hsame ("./" ++ f)]
    have hlisted : s.selects ("./" ++ f) = .ok true → f ∈ gs := fun hchosen =>
      (hiff f).mp ((h.mem_folders hws).mpr ⟨f, hf, rfl, hchosen⟩)
    refine ⟨fun _ hchosen => ?_, fun hother => ⟨fun hchosen => ?_, fun hchosen => ?_⟩⟩
    · obtain ⟨-, -, -, hchosen'⟩ := (h.mem_tracked hgs).mp (hlisted hchosen)
      exact hchosen'
    · -- the repository shows no file by this name
      obtain ⟨g, hg, hshown, -⟩ := (h.mem_tracked hgs).mp (hlisted hchosen)
      have hplain := hnames g hg (hshown ▸ hf)
      rw [quotedName_eq_self_iff.mpr hplain] at hshown
      exact hother (hshown ▸ hplain)
    · -- no folder has a file by the name in quotes
      have hmem := (hiff _).mpr ((h.mem_tracked hgs).mpr ⟨f, hf, rfl, hchosen⟩)
      obtain ⟨g, hg, heq, -⟩ := (h.mem_folders hws).mp hmem
      exact hother (hnames f hf ((String.append_right_inj _).mp heq ▸ hg))

/-! ### Files at the top -/

section Sample

open Settings (plain goFile)

lemma isAllTracked_flat {cs : List (String × Tree.Entry)} (hnodup : (cs.map (·.1)).Nodup)
    (hnames : ∀ c ∈ cs, Path.IsName c.1) (hfiles : ∀ c ∈ cs, ∃ data mode, c.2 = .file data mode) :
    IsAllTracked ⟨.ofFolder cs, some (cs.map (·.1))⟩ (cs.map (·.1)) := by
  have hproper : (Tree.ofFolder cs).IsProper :=
    Tree.Entry.isProper_folder hnodup hnames fun c hc => by
    obtain ⟨data, mode, hfile⟩ := hfiles c hc
    exact Tree.Entry.isProper_of_not_isFolder (by rw [hfile]; rfl)
  have hentry : ∀ {l n}, (Tree.ofFolder cs).nodeAt l = some n → l = [] ∧ n = .folder ∨
      ∃ c ∈ cs, l = [c.1] ∧ ∃ data mode, n = .file data mode := by
    intro l n hn
    obtain ⟨e, he, rfl⟩ := Option.map_eq_some_iff.mp hn
    rcases l with _ | ⟨name, rest⟩
    · obtain rfl := Option.some.inj he
      exact .inl ⟨rfl, rfl⟩
    · rw [Tree.at?, Tree.ofFolder, Tree.Entry.at?_cons, Tree.Entry.child?_folder] at he
      obtain ⟨e', he', hbelow⟩ := Option.bind_eq_some_iff.mp he
      obtain ⟨front, back, heq, -⟩ := List.lookup_eq_some_iff.mp he'
      have hmem : (name, e') ∈ cs := by simp [heq]
      obtain ⟨data, mode, hfile⟩ := hfiles _ hmem
      obtain rfl : e' = .file data mode := hfile
      cases rest with
      | nil =>
        obtain rfl := Option.some.inj hbelow
        exact .inr ⟨_, hmem, rfl, data, mode, rfl⟩
      | cons second rest => cases hbelow
  refine ⟨hproper, fun l target hlink => ?_, rfl, fun path => ?_⟩
  · obtain ⟨-, h⟩ | ⟨c, -, -, data, mode, h⟩ := hentry hlink <;> cases h
  · constructor
    · intro hpath
      obtain ⟨c, hc, rfl⟩ := List.mem_map.mp hpath
      obtain ⟨data, mode, hfile⟩ := hfiles c hc
      have hat : (Tree.ofFolder cs).at? ([] ++ [c.1]) = some c.2 := at?_child hproper rfl hc
      refine ⟨[c.1], (String.intercalate_singleton).symm, by simp, data, mode, ?_⟩
      exact nodeAt_eq_file_iff.mpr (hfile ▸ hat)
    · rintro ⟨l, rfl, -, data, mode, hfile⟩
      rcases hentry hfile with ⟨-, h⟩ | ⟨c, hc, rfl, -⟩
      · cases h
      · rw [String.intercalate_singleton]
        exact List.mem_map_of_mem hc

/-- Two files with plain names. -/
def twoFiles : Project :=
  ⟨.ofFolder [("a.go", .file goFile 0o644), ("c.txt", .file [] 0o644)], some ["a.go", "c.txt"]⟩

theorem twoFiles_alike :
    ∃ ws gs, twoFiles.candidates (plain.listing false) "." = .ok ws ∧
      twoFiles.candidates (plain.listing true) "." = .ok gs ∧ SameFiles ws gs ∧ "a.go" ∈ gs := by
  have hall : twoFiles.IsAllTracked ["a.go", "c.txt"] :=
    isAllTracked_flat (by decide) (by decide) (by simp)
  have hplain : ∀ f ∈ ["a.go", "c.txt"], IsPlainName f ∧ ¬ plain.TakesPoint f := by decide
  have ha : plain.selects "a.go" = .ok true := rfl
  have hc : plain.selects "c.txt" = .ok false := rfl
  obtain ⟨hreturns, hsame⟩ := candidates_alike hall plain
  obtain ⟨gs, hgs⟩ := hall.exists_tracked_iff.mpr fun g hg => by
    rw [quotedName_eq_self_iff.mpr (hplain g hg).1]
    rcases List.mem_pair.mp hg with rfl | rfl
    · exact ⟨_, ha⟩
    · exact ⟨_, hc⟩
  obtain ⟨ws, hws⟩ := (hreturns hplain).mpr ⟨gs, hgs⟩
  refine ⟨ws, gs, hws, hgs, (hsame ws gs hws hgs).1 fun f hf => ?_, ?_⟩
  · exact .of_plain (hplain f hf).1 (hplain f hf).2
  · exact (hall.mem_tracked hgs).mpr ⟨"a.go", by simp, quotedName_eq_self_iff.mpr (by decide), ha⟩

/-- A file with a name that is not plain. -/
def accentedFile : Project := ⟨.ofFolder [("é.go", .file goFile 0o644)], some ["é.go"]⟩

/-- **A file with an accent in its name is not found in the repository.** -/
theorem accented_is_lost :
    accentedFile.IsAllTracked ["é.go"] ∧
      accentedFile.candidates (plain.listing false) "." = .ok ["./é.go"] ∧
      accentedFile.candidates (plain.listing true) "." = .ok [] := by
  have hfolders : accentedFile.files (plain.listing false) "." = .ok ["./é.go"] := by
    have hfiles : accentedFile.tree.filesAt? "." = .ok (some ["./é.go"]) :=
      filesAt?_point ["é.go"] (by decide) (by decide) (by decide)
    rw [files, if_neg (by decide), hfiles]
  have hname : quotedName "é.go" = "\"\\303\\251.go\"" := by cbv
  have htracked : accentedFile.files (plain.listing true) "." = .ok ["\"\\303\\251.go\""] := by
    rw [files, if_pos (by decide), trackedAt?_point rfl, List.mergeSort_singleton,
      List.map_singleton, hname]
  refine ⟨isAllTracked_flat (by decide) (by decide) (by simp), ?_, ?_⟩
  · rw [candidates_of_files hfolders]
    rfl
  · rw [candidates_of_files htracked]
    rfl

end Sample

end Project

end Letterhead
