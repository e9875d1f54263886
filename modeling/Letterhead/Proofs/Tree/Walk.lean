import Mathlib.Data.List.Nodup
import Letterhead.Tree.Walk
import Letterhead.Proofs.Path
import Letterhead.Proofs.Tree.Locate

/-!
The files below a folder are different files.

Each location is met once, because the names in a folder differ. And the path of a file goes through
the names of folders that are no links, so that it leads to the location at which the file was
met.
-/

namespace Letterhead.Tree

open Letterhead.Path (IsName)

/-- The folders are ones that a disk may hold: their names are names, and differ. -/
def Entry.IsProper (e : Entry) : Prop :=
  ∀ l cs, e.at? l = some (folder cs) → (cs.map (·.1)).Nodup ∧ ∀ c ∈ cs, IsName c.1

def IsProper (t : Tree) : Prop := t.top.IsProper

/-- No two of the paths lead to the same place, when a link at the end is not followed. -/
def Apart (t : Tree) (files : List String) : Prop :=
  files.Pairwise fun f g => ∀ l, t.locate f false = .ok l → t.locate g false ≠ .ok l

variable {top : Tree} {t : Entry} {here l : Location} {cs : List (String × Entry)}

lemma lookup_of_mem (hnodup : (cs.map (·.1)).Nodup) {c : String × Entry} (hc : c ∈ cs) :
    cs.lookup c.1 = some c.2 := by
  induction cs with
  | nil => cases hc
  | cons d cs ih =>
    obtain ⟨hd, hnodup⟩ := List.nodup_cons.mp hnodup
    rcases List.mem_cons.mp hc with rfl | hc
    · exact List.lookup_cons_self
    · have hne : (c.1 == d.1) = false := by
        rw [beq_eq_false_iff_ne]
        intro heq
        exact hd (List.mem_map.mpr ⟨c, hc, heq⟩)
      rw [List.lookup_cons, hne]
      exact ih hnodup hc

lemma Entry.isProper_of_not_isFolder (h : t.isFolder = false) : t.IsProper := by
  intro l cs hat
  cases l with
  | nil =>
    obtain rfl := Option.some.inj hat
    cases h
  | cons name l =>
    cases t with
    | folder cs => cases h
    | file data mode => cases hat
    | link target => cases hat

lemma Entry.isProper_folder (hnodup : (cs.map (·.1)).Nodup) (hnames : ∀ c ∈ cs, IsName c.1)
    (hentries : ∀ c ∈ cs, c.2.IsProper) : (folder cs).IsProper := by
  intro l cs' hat
  cases l with
  | nil =>
    obtain rfl := folder.inj (Option.some.inj hat)
    exact ⟨hnodup, hnames⟩
  | cons name l =>
    rw [at?_cons, child?_folder] at hat
    obtain ⟨t, ht, hrest⟩ := Option.bind_eq_some_iff.mp hat
    obtain ⟨front, rest, heq, -⟩ := List.lookup_eq_some_iff.mp ht
    exact hentries (name, t) (by simp [heq]) l cs' hrest

lemma at?_child (hproper : top.IsProper) (hat : top.at? here = some (.folder cs))
    {c : String × Entry} (hc : c ∈ cs) : top.at? (here ++ [c.1]) = some c.2 := by
  rw [at?_append, hat, Option.bind_some, Entry.at?_cons, Entry.child?_folder,
    lookup_of_mem (hproper here cs hat).1 hc, Option.bind_some, Entry.at?_nil]

/-! ### Each file once -/

lemma sizeOf_child_lt {c : String × Entry} (hc : c ∈ cs) :
    sizeOf c.2 < sizeOf (Entry.folder cs) := by
  have hlt := List.sizeOf_lt_of_mem hc
  obtain ⟨name, t⟩ := c
  simp only [Prod.mk.sizeOf_spec, Entry.folder.sizeOf_spec] at hlt ⊢
  omega

/-- The folders among the entries. -/
def foldersOf (cs : List (String × Entry)) : List (String × Entry) :=
  cs.filter fun c => c.2.isFolder && c.1 ≠ hidden

lemma foldersIn_eq (top : Tree) (here : Location) (cs : List (String × Entry)) :
    foldersIn top here cs =
      (foldersOf cs).map fun c => (c.1, filesIn top (here ++ [c.1]) c.2) := by
  induction cs with
  | nil => rw [foldersIn]; rfl
  | cons c cs ih =>
    obtain ⟨name, t⟩ := c
    rw [foldersIn, ih, foldersOf, foldersOf, List.filter_cons]
    split <;> rfl

@[simp] lemma filesIn_file (top : Tree) (here : Location) (data : Bytes) (mode : Nat) :
    filesIn top here (.file data mode) = [] := by simp [filesIn]

@[simp] lemma filesIn_link (top : Tree) (here : Location) (target : String) :
    filesIn top here (.link target) = [] := by simp [filesIn]

lemma filesIn_perm (top : Tree) (here : Location) (cs : List (String × Entry)) :
    (filesIn top here (.folder cs)).Perm
      ((cs.filter fun c => top.countsAsFile here c.1 c.2).map (fun c => here ++ [c.1]) ++
        (foldersOf cs).flatMap fun c => filesIn top (here ++ [c.1]) c.2) := by
  rw [filesIn, fileNames, foldersIn_eq]
  refine List.Perm.append ?_ ?_
  · have h := (List.mergeSort_perm ((cs.filter fun c => top.countsAsFile here c.1 c.2).map (·.1))
      isBefore).map fun name => here ++ [name]
    rwa [List.map_map] at h
  · have h := (List.mergeSort_perm ((foldersOf cs).map fun c =>
      (c.1, filesIn top (here ++ [c.1]) c.2)) fun a b => isBefore a.1 b.1).flatMap_right (·.2)
    rwa [List.flatMap_map] at h

lemma mem_filesIn (hproper : top.IsProper) (hat : top.at? here = some t)
    (hl : l ∈ filesIn top here t) :
    ∃ names, names ≠ [] ∧ l = here ++ names ∧ (∀ name ∈ names, IsName name) ∧
      top.nodeAt l ≠ none := by
  induction hsize : sizeOf t using Nat.strong_induction_on generalizing t here with
  | _ n ih =>
    rcases t with _ | _ | cs
    · simp at hl
    · simp at hl
    have hnames := (hproper here cs hat).2
    rcases List.mem_append.mp ((filesIn_perm top here cs).mem_iff.mp hl) with hl | hl
    · obtain ⟨c, hc, rfl⟩ := List.mem_map.mp hl
      have hc := List.mem_of_mem_filter hc
      refine ⟨[c.1], by simp, rfl, by simpa using hnames c hc, ?_⟩
      rw [nodeAt, at?_child hproper hat hc]
      simp
    · obtain ⟨c, hc, hl⟩ := List.mem_flatMap.mp hl
      have hc := List.mem_of_mem_filter hc
      obtain ⟨names, -, rfl, hall, hentry⟩ := ih _ (hsize ▸ sizeOf_child_lt hc)
        (at?_child hproper hat hc) hl rfl
      exact ⟨c.1 :: names, by simp, by simp, List.forall_mem_cons.mpr ⟨hnames c hc, hall⟩, hentry⟩

lemma mem_iff_at? (hproper : top.IsProper) (hat : top.at? here = some (.folder cs))
    {name : String} :
    (name, t) ∈ cs ↔ top.at? (here ++ [name]) = some t := by
  constructor
  · exact fun h => at?_child hproper hat h
  · intro h
    rw [at?_append, hat, Option.bind_some, Entry.at?_cons, Entry.child?_folder] at h
    obtain ⟨e, he, hnil⟩ := Option.bind_eq_some_iff.mp h
    obtain rfl := Option.some.inj hnil
    obtain ⟨front, back, heq, -⟩ := List.lookup_eq_some_iff.mp he
    simp [heq]

section Folder

variable (hproper : top.IsProper) (hat : top.at? here = some (.folder cs)) {name : String}

include hproper hat

lemma singleton_mem_filesIn :
    here ++ [name] ∈ filesIn top here (.folder cs) ↔
      ∃ e, (name, e) ∈ cs ∧ top.countsAsFile here name e = true := by
  rw [(filesIn_perm top here cs).mem_iff, List.mem_append]
  constructor
  · rintro (hl | hl)
    · obtain ⟨⟨k, e⟩, hc, heq⟩ := List.mem_map.mp hl
      obtain rfl : k = name := by simpa using heq
      exact ⟨e, List.mem_filter.mp hc⟩
    · obtain ⟨c, hc, hl⟩ := List.mem_flatMap.mp hl
      obtain ⟨names, hne, heq, -⟩ :=
        mem_filesIn hproper (at?_child hproper hat (List.mem_of_mem_filter hc)) hl
      exact absurd (by simpa using heq) (by simp [hne] : ¬ (name = c.1 ∧ names = []))
  · rintro ⟨e, hc⟩
    exact .inl (List.mem_map.mpr ⟨(name, e), List.mem_filter.mpr hc, rfl⟩)

lemma cons_mem_filesIn {rest : List String} (hne : rest ≠ []) :
    here ++ name :: rest ∈ filesIn top here (.folder cs) ↔
      ∃ e, (name, e) ∈ foldersOf cs ∧
        here ++ [name] ++ rest ∈ filesIn top (here ++ [name]) e := by
  rw [(filesIn_perm top here cs).mem_iff, List.mem_append, List.append_cons here name rest]
  constructor
  · rintro (hl | hl)
    · obtain ⟨c, -, heq⟩ := List.mem_map.mp hl
      exact absurd (by simpa using heq) (by simp [hne.symm] : ¬ (c.1 = name ∧ [] = rest))
    · obtain ⟨⟨k, e⟩, hc, hl⟩ := List.mem_flatMap.mp hl
      obtain ⟨names, -, heq, -⟩ :=
        mem_filesIn hproper (at?_child hproper hat (List.mem_of_mem_filter hc)) hl
      obtain rfl : name = k := (List.cons.inj (by simpa using heq)).1
      exact ⟨e, hc, hl⟩
  · rintro ⟨e, hc, hl⟩
    exact .inr (List.mem_flatMap.mpr ⟨(name, e), hc, hl⟩)

end Folder

lemma mem_filesIn_iff (hproper : top.IsProper)
    (hlinks : ∀ l target, top.nodeAt (here ++ l) ≠ some (.link target))
    (hat : top.at? here = some (.folder cs)) {names : List String} (hne : names ≠ []) :
    here ++ names ∈ filesIn top here (.folder cs) ↔
      hidden ∉ names.dropLast ∧
        ∃ data mode, top.nodeAt (here ++ names) = some (.file data mode) := by
  simp only [nodeAt_eq_file_iff]
  induction names generalizing here cs with
  | nil => exact absurd rfl hne
  | cons name rest ih =>
    rcases eq_or_ne rest [] with rfl | hrest
    · rw [singleton_mem_filesIn hproper hat]
      simp only [mem_iff_at? hproper hat]
      constructor
      · rintro ⟨e, he, hcounts⟩
        cases e with
        | file data mode => exact ⟨by simp, data, mode, he⟩
        | folder _ => cases hcounts
        | link target => exact absurd (by rw [nodeAt, he]; rfl) (hlinks [name] target)
      · rintro ⟨-, data, mode, hfile⟩
        exact ⟨_, hfile, rfl⟩
    · have hbelow : ∀ l target, top.nodeAt (here ++ [name] ++ l) ≠ some (.link target) := by
        intro l target
        rw [List.append_assoc]
        exact hlinks _ target
      rw [cons_mem_filesIn hproper hat hrest, List.dropLast_cons_of_ne_nil hrest, List.mem_cons,
        not_or, List.append_cons here name rest]
      simp only [foldersOf, List.mem_filter, mem_iff_at? hproper hat, Bool.and_eq_true,
        decide_eq_true_eq]
      constructor
      · rintro ⟨e, ⟨he, hfolder, hname⟩, hl⟩
        rcases e with _ | _ | cs'
        · cases hfolder
        · cases hfolder
        obtain ⟨hhidden, hfile⟩ := (ih hbelow he hrest).mp hl
        exact ⟨⟨Ne.symm hname, hhidden⟩, hfile⟩
      · rintro ⟨⟨hname, hhidden⟩, data, mode, hfile⟩
        obtain ⟨second, rest, rfl⟩ := List.exists_cons_of_ne_nil hrest
        obtain ⟨cs', he⟩ := exists_folder_of_at?_append hfile
        exact ⟨_, ⟨he, rfl, Ne.symm hname⟩, (ih hbelow he hrest).mpr ⟨hhidden, data, mode, hfile⟩⟩

lemma nodup_filesIn (hproper : top.IsProper) (hat : top.at? here = some t) :
    (filesIn top here t).Nodup := by
  induction hsize : sizeOf t using Nat.strong_induction_on generalizing t here with
  | _ n ih =>
    rcases t with _ | _ | cs
    · simp
    · simp
    have hnodup := (hproper here cs hat).1
    have hsub : ∀ p : String × Entry → Bool, ((cs.filter p).map (·.1)).Nodup := fun p =>
      hnodup.sublist (List.filter_sublist.map _)
    rw [(filesIn_perm top here cs).nodup_iff, List.nodup_append]
    refine ⟨?_, ?_, ?_⟩
    · have h := (hsub fun c => top.countsAsFile here c.1 c.2).map (f := fun name => here ++ [name])
        fun a b h => by simpa using h
      rwa [List.map_map] at h
    · rw [List.nodup_flatMap]
      constructor
      · intro c hc
        have hc := List.mem_of_mem_filter hc
        exact ih _ (hsize ▸ sizeOf_child_lt hc) (at?_child hproper hat hc) rfl
      · -- two folders have different names
        refine (List.pairwise_map.mp (hsub _)).imp_of_mem fun {c d} hc hd hne l hlc hld => hne ?_
        obtain ⟨names, -, rfl, -, -⟩ := mem_filesIn hproper
          (at?_child hproper hat (List.mem_of_mem_filter hc)) hlc
        obtain ⟨names', -, heq, -, -⟩ := mem_filesIn hproper
          (at?_child hproper hat (List.mem_of_mem_filter hd)) hld
        simp only [List.append_assoc, List.singleton_append, List.append_right_inj,
          List.cons.injEq] at heq
        exact heq.1
    · rintro l hl l' hl' rfl
      obtain ⟨c, -, rfl⟩ := List.mem_map.mp hl
      obtain ⟨d, hd, hl'⟩ := List.mem_flatMap.mp hl'
      obtain ⟨names, hne, heq, -, -⟩ := mem_filesIn hproper
        (at?_child hproper hat (List.mem_of_mem_filter hd)) hl'
      simp only [List.append_assoc, List.singleton_append, List.append_right_inj,
        List.cons.injEq] at heq
      exact hne heq.2.symm

/-! ### Where their paths lead -/

lemma eq_of_locate_file {path : String} {names : List String} (hhere : top.locate path = .ok here)
    (hfolder : top.nodeAt here = some .folder) (hne : names ≠ [])
    (hnames : ∀ name ∈ names, IsName name) (hentry : top.nodeAt (here ++ names) ≠ none)
    (h : top.locate (Path.below path names) false = .ok l) : l = here ++ names := by
  obtain ⟨hempty, hfollow⟩ := locate_eq_ok_iff.mp hhere
  obtain ⟨-, hl⟩ := locate_eq_ok_iff.mp h
  have hstart := nodeAt_origin path top.nodeAt_base
  have horigin : origin (Path.below path names) top.base = origin path top.base := by
    rw [origin, origin, Path.isAbsolute_below hempty]
  have hsteps : steps (Path.below path names) = Path.parts path ++ names := by
    rw [steps, Path.endsIn_slash_below path hne hnames, Path.parts_below path hne hnames]
    exact List.append_nil _
  rw [horigin, hsteps] at hl
  obtain ⟨hparts, -⟩ := follow_parts hstart hfollow
  rcases follow_append false linkLimit (Path.parts path) hstart hne with
    ⟨e, herror, -⟩ | ⟨m, links, hm, ⟨-, hrest⟩ | ⟨hno, -⟩⟩
  · cases herror.symm.trans hparts
  · obtain rfl := Except.ok.inj (hm.symm.trans hparts)
    rw [hrest] at hl
    exact eq_of_follow_entries (fun name hname => ⟨(hnames name hname).ne_point,
      (hnames name hname).ne_points⟩) hentry hl
  · obtain rfl := Except.ok.inj (hm.symm.trans hparts)
    exact absurd hfolder hno

/-- **The files at a path are different files**: no two of their paths are the same, or lead to the
same place. -/
theorem apart_filesAt {path : String} {files : List String} (hproper : top.IsProper)
    (h : top.filesAt? path = .ok (some files)) : files.Nodup ∧ top.Apart files := by
  unfold filesAt? at h
  dsimp only at h
  set start := (Path.ofString path).toString
  split at h
  swap
  · cases h
  swap
  · cases h
  next here hhere =>
  split at h
  · cases h
    exact ⟨List.nodup_singleton _, List.pairwise_singleton _ _⟩
  · next cs hat =>
    obtain rfl := Option.some.inj (Except.ok.inj h)
    have hfolder : top.nodeAt here = some .folder := nodeAt_eq_folder_iff.mpr ⟨cs, hat⟩
    rw [filesBelow, hat]
    dsimp only
    have hnodup := nodup_filesIn hproper hat
    have hmem : ∀ l ∈ filesIn top here (.folder cs), ∃ names, names ≠ [] ∧ l = here ++ names ∧
        (∀ name ∈ names, IsName name) ∧
        ∀ m, top.locate (Path.below start (l.drop here.length)) false = .ok m → m = l := by
      intro l hl
      obtain ⟨names, hne, rfl, hnames, hentry⟩ := mem_filesIn hproper hat hl
      rw [List.drop_left]
      exact ⟨names, hne, rfl, hnames, fun m hm =>
        eq_of_locate_file hhere hfolder hne hnames hentry hm⟩
    constructor
    · -- a path tells its names
      refine hnodup.map_on fun l hl l' hl' heq => ?_
      obtain ⟨names, hne, rfl, hnames, -⟩ := hmem l hl
      obtain ⟨names', hne', rfl, hnames', -⟩ := hmem l' hl'
      have hparts := congrArg Path.parts heq
      rw [List.drop_left, List.drop_left, Path.parts_below _ hne hnames,
        Path.parts_below _ hne' hnames'] at hparts
      rw [List.append_cancel_left hparts]
    · refine List.pairwise_map.mpr (hnodup.imp_of_mem fun {l l'} hl hl' hne m hm hm' => hne ?_)
      obtain ⟨-, -, -, -, hlead⟩ := hmem l hl
      obtain ⟨-, -, -, -, hlead'⟩ := hmem l' hl'
      rw [← hlead m hm, hlead' m hm']
  · cases h

/-! ### The files of the run -/

lemma locate_point (t : Tree) : t.locate "." = .ok t.base := by
  have hsteps : steps "." = ["."] := by decide
  have horigin : origin "." t.base = t.base := if_neg (by decide)
  rw [locate, if_neg (by decide), hsteps, horigin, follow, if_pos rfl, follow]

lemma filesAt?_point (names : List String) (hflat : ∀ c ∈ cs, c.2.isFolder = false)
    (hnames : (cs.filter fun c => (ofFolder cs).countsAsFile [] c.1 c.2).map (·.1) = names)
    (hsorted : names.Pairwise fun a b => isBefore a b = true) :
    (ofFolder cs).filesAt? "." = .ok (some (names.map fun name => Path.below "." [name])) := by
  have hpath : (Path.ofString ".").toString = "." := by decide
  have hfolders : foldersOf cs = [] := by
    refine List.filter_eq_nil_iff.mpr fun c hc => ?_
    simp [hflat c hc]
  have hin : filesIn (ofFolder cs) [] (.folder cs) = names.map fun name => [name] := by
    rw [filesIn, foldersIn_eq, hfolders, fileNames, hnames, List.mergeSort_of_pairwise hsorted]
    simp
  have hbase : (ofFolder cs).base = [] := rfl
  have hat : (ofFolder cs).at? [] = some (.folder cs) := rfl
  unfold filesAt?
  dsimp only
  rw [hpath, locate_point, hbase]
  simp only [hat, filesBelow, hin, List.map_map, Function.comp_def, List.length_nil,
    List.drop_zero]

end Letterhead.Tree
