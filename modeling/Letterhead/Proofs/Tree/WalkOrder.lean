import Mathlib.Data.String.Basic
import Mathlib.Logic.Relation
import Letterhead.Proofs.Tree.Walk

/-!
A walk tells each file once, in an order that their names give.

What a walk reaches is told by its steps from folder to folder, with no word on the order in which
it takes them. The order is one of rows of names: where two rows part, a file comes before a folder,
and otherwise the smaller name comes first.
-/

namespace Letterhead.Tree

variable {top : Tree} {t : Entry} {here l l' : Location} {cs : List (String × Entry)}
  {name : String}
  {names : List String}

/-! ### What a walk reaches -/

/-- A walk goes from a folder into one of its folders. -/
def Enters (top : Tree) (l l' : Location) : Prop :=
  ∃ name, name ≠ hidden ∧ l' = l ++ [name] ∧ top.nodeAt l' = some .folder

/-- The entry of this name in a folder is no folder, and no link that leads to one. -/
inductive IsFileAt (top : Tree) (l : Location) (name : String) : Prop where
  | file {data : Bytes} {mode : Nat} (h : top.nodeAt (l ++ [name]) = some (.file data mode))
  | link {target : String} (h : top.nodeAt (l ++ [name]) = some (.link target))
      (hno : ∀ l', top.follow true linkLimit l [name] = .ok l' → top.nodeAt l' ≠ some .folder)

/-- From one folder, the names lead to a file through folders that a walk goes into. -/
def LeadsToFile (top : Tree) (here : Location) (names : List String) : Prop :=
  ∃ front name, names = front ++ [name] ∧
    Relation.ReflTransGen (Enters top) here (here ++ front) ∧ IsFileAt top (here ++ front) name

lemma countsAsFile_iff (hat : top.at? (here ++ [name]) = some t) :
    top.countsAsFile here name t = true ↔ IsFileAt top here name := by
  have hnode : top.nodeAt (here ++ [name]) = some t.node := by rw [nodeAt, hat]; rfl
  cases t with
  | file data mode => exact iff_of_true rfl (.file hnode)
  | folder cs =>
    refine iff_of_false Bool.false_ne_true ?_
    rintro (h | h)
    · cases hnode.symm.trans h
    · cases hnode.symm.trans h
  | link target =>
    rw [countsAsFile]
    constructor
    · intro h
      refine .link hnode fun l' hfollow hfolder => ?_
      obtain ⟨cs, hcs⟩ := nodeAt_eq_folder_iff.mp hfolder
      simp [hfollow, Except.toOption, hcs] at h
    · rintro (h | ⟨-, hno⟩)
      · cases hnode.symm.trans h
      · split
        · next hfolder =>
          obtain ⟨l', hl', hat'⟩ := Option.bind_eq_some_iff.mp hfolder
          cases hfollow : top.follow true linkLimit here [name] with
          | error e =>
            rw [hfollow] at hl'
            cases hl'
          | ok m =>
            rw [hfollow] at hl'
            obtain rfl := Option.some.inj hl'
            exact absurd (nodeAt_eq_folder_iff.mpr ⟨_, hat'⟩) (hno _ hfollow)
        · rfl

lemma prefix_of_enters (h : Relation.ReflTransGen (Enters top) l l') : l <+: l' := by
  induction h with
  | refl => exact List.prefix_refl l
  | tail _ hstep ih =>
    obtain ⟨name, -, rfl, -⟩ := hstep
    exact ih.trans (List.prefix_append _ _)

/-- Behind a first folder, names lead to a file just if the folder is gone into and they lead there
from it. -/
lemma leadsToFile_cons (hne : names ≠ []) : LeadsToFile top here (name :: names) ↔
    name ≠ hidden ∧ top.nodeAt (here ++ [name]) = some .folder ∧
      LeadsToFile top (here ++ [name]) names := by
  constructor
  · rintro ⟨front, last, heq, hreach, hfile⟩
    rcases front with _ | ⟨first, front⟩
    · exact absurd (List.cons.inj heq).2 hne
    obtain ⟨rfl, rfl⟩ := List.cons.inj heq
    rw [List.append_cons] at hreach hfile
    rcases hreach.cases_head with hsame | ⟨m, ⟨next, hhidden, rfl, hfolder⟩, hreach⟩
    · simp at hsame
    · obtain ⟨rest, hrest⟩ := prefix_of_enters hreach
      obtain rfl : next = name := by
        simp only [List.append_assoc, List.append_cancel_left_eq, List.singleton_append,
          List.cons.injEq] at hrest
        exact hrest.1
      exact ⟨hhidden, hfolder, front, last, rfl, hreach, hfile⟩
  · rintro ⟨hhidden, hfolder, front, last, rfl, hreach, hfile⟩
    refine ⟨name :: front, last, rfl, ?_, ?_⟩
    · rw [List.append_cons]
      exact hreach.head ⟨name, hhidden, rfl, hfolder⟩
    · rwa [List.append_cons]

lemma leadsToFile_singleton : LeadsToFile top here [name] ↔ IsFileAt top here name := by
  constructor
  · rintro ⟨front, last, heq, -, hfile⟩
    obtain ⟨rfl, rfl⟩ := List.append_eq_singleton_iff.mp heq.symm |>.resolve_right (by simp)
      |>.imp_right List.singleton_inj.mp
    simpa using hfile
  · intro h
    exact ⟨[], name, rfl, by simpa using .refl, by simpa using h⟩

/-- **A walk meets exactly the files that it can reach.** -/
theorem mem_filesIn_iff_leadsToFile (hproper : top.IsProper)
    (hat : top.at? here = some (.folder cs)) (hne : names ≠ []) :
    here ++ names ∈ filesIn top here (.folder cs) ↔ LeadsToFile top here names := by
  induction names generalizing here cs with
  | nil => exact absurd rfl hne
  | cons name rest ih =>
    rcases eq_or_ne rest [] with rfl | hrest
    · rw [singleton_mem_filesIn hproper hat, leadsToFile_singleton]
      simp only [mem_iff_at? hproper hat]
      constructor
      · rintro ⟨e, he, hcounts⟩
        exact (countsAsFile_iff he).mp hcounts
      · intro h
        obtain ⟨e, he⟩ : ∃ e, top.at? (here ++ [name]) = some e := by
          rcases h with h | h
          · exact (Option.map_eq_some_iff.mp h).imp fun _ h => h.1
          · exact (Option.map_eq_some_iff.mp h).imp fun _ h => h.1
        exact ⟨e, he, (countsAsFile_iff he).mpr h⟩
    · rw [cons_mem_filesIn hproper hat hrest, leadsToFile_cons hrest]
      simp only [foldersOf, List.mem_filter, mem_iff_at? hproper hat, Bool.and_eq_true,
        decide_eq_true_eq, nodeAt_eq_folder_iff]
      constructor
      · rintro ⟨e, ⟨he, hfolder, hhidden⟩, hl⟩
        rcases e with _ | _ | cs'
        · cases hfolder
        · cases hfolder
        · exact ⟨hhidden, ⟨cs', he⟩, (ih he hrest).mp hl⟩
      · rintro ⟨hhidden, ⟨cs', he⟩, hleads⟩
        exact ⟨_, ⟨he, rfl, hhidden⟩, (ih he hrest).mpr hleads⟩

/-! ### The order of a walk -/

/-- The order in which a walk meets two files, told by the names that lead to them. -/
inductive Precedes : List String → List String → Prop where
  /-- Two files of one folder. -/
  | files {a b : String} (h : a < b) : Precedes [a] [b]
  /-- A file of a folder, and one further down. -/
  | above {a b c : String} {rest : List String} : Precedes [a] (b :: c :: rest)
  /-- Files in different folders of one folder. -/
  | folders {a a' b b' : String} {as bs : List String} (h : a < b) :
    Precedes (a :: a' :: as) (b :: b' :: bs)
  /-- Files in the same folder of a folder. -/
  | within {a : String} {as bs : List String} (h : Precedes as bs) : Precedes (a :: as) (a :: bs)

/-- The names that lead from a folder to its files, in the order of a walk. -/
def rowsIn (top : Tree) (here : Location) (t : Entry) : List (List String) :=
  (filesIn top here t).map (·.drop here.length)

/-- The folders among the entries, in the order of their names. -/
def sortedFolders (cs : List (String × Entry)) : List (String × Entry) :=
  (foldersOf cs).mergeSort fun c d => isBefore c.1 d.1

lemma mem_rowsIn (hproper : top.IsProper) (hat : top.at? here = some t) :
    names ∈ rowsIn top here t ↔ names ≠ [] ∧ here ++ names ∈ filesIn top here t := by
  rw [rowsIn, List.mem_map]
  constructor
  · rintro ⟨l, hl, rfl⟩
    obtain ⟨names, hne, rfl, -⟩ := mem_filesIn hproper hat hl
    rw [List.drop_left]
    exact ⟨hne, hl⟩
  · rintro ⟨-, hl⟩
    exact ⟨_, hl, List.drop_left⟩

/-- The rows of a folder: its files, and then those of its folders. -/
lemma rowsIn_folder (hproper : top.IsProper) (hat : top.at? here = some (.folder cs)) :
    rowsIn top here (.folder cs) = (top.fileNames here cs).map (fun name => [name]) ++
      (sortedFolders cs).flatMap fun c => (rowsIn top (here ++ [c.1]) c.2).map (c.1 :: ·) := by
  have hsorted : (foldersIn top here cs).mergeSort (fun a b => isBefore a.1 b.1) =
      (sortedFolders cs).map fun c => (c.1, filesIn top (here ++ [c.1]) c.2) := by
    rw [foldersIn_eq, sortedFolders]
    symm
    apply List.map_mergeSort
    exact fun _ _ _ _ => rfl
  rw [rowsIn, filesIn, hsorted, List.map_append, List.map_map, List.flatMap_map, List.map_flatMap]
  congr 1
  · simp [Function.comp_def]
  · refine List.flatMap_congr fun c hc => ?_
    have hc' : c ∈ cs := List.mem_of_mem_filter ((List.mem_mergeSort).mp hc)
    rw [rowsIn, List.map_map]
    refine List.map_congr_left fun l hl => ?_
    obtain ⟨names, -, rfl, -⟩ := mem_filesIn hproper (at?_child hproper hat hc') hl
    simp

lemma pairwise_isBefore_mergeSort {α : Type} (key : α → String) (xs : List α) :
    (xs.mergeSort fun a b => isBefore (key a) (key b)).Pairwise fun a b => key a ≤ key b := by
  refine (List.pairwise_mergeSort (fun a b c hab hbc => ?_) (fun a b => ?_) xs).imp
    fun {a b} h => of_decide_eq_true h
  · exact decide_eq_true ((of_decide_eq_true hab).trans (of_decide_eq_true hbc))
  · simpa [isBefore] using le_total (key a) (key b)

lemma pairwise_lt_mergeSort {α : Type} (key : α → String) {xs : List α} (h : (xs.map key).Nodup) :
    (xs.mergeSort fun a b => isBefore (key a) (key b)).Pairwise fun a b => key a < key b := by
  have hne : (xs.mergeSort fun a b => isBefore (key a) (key b)).Pairwise
      fun a b => key a ≠ key b :=
    List.pairwise_map.mp (((List.mergeSort_perm _ _).map key).nodup_iff.mpr h)
  exact (pairwise_isBefore_mergeSort key xs).imp₂ (fun _ _ hle hne => lt_of_le_of_ne hle hne) hne

/-- **A walk meets files in its order**: those of a folder by their names, and then what is below
its folders, by theirs. -/
theorem pairwise_rowsIn (hproper : top.IsProper) (hat : top.at? here = some t) :
    (rowsIn top here t).Pairwise Precedes := by
  induction hsize : sizeOf t using Nat.strong_induction_on generalizing t here with
  | _ n ih =>
    rcases t with _ | _ | cs
    · simp [rowsIn]
    · simp [rowsIn]
    have hnodup := (hproper here cs hat).1
    have hsub : ∀ p : String × Entry → Bool, ((cs.filter p).map (·.1)).Nodup := fun p =>
      hnodup.sublist (List.filter_sublist.map _)
    have hrow : ∀ c ∈ sortedFolders cs, ∀ x ∈ (rowsIn top (here ++ [c.1]) c.2).map (c.1 :: ·),
        ∃ second rest, x = c.1 :: second :: rest := by
      intro c hc x hx
      have hc' := List.mem_of_mem_filter (List.mem_mergeSort.mp hc)
      obtain ⟨names, hnames, rfl⟩ := List.mem_map.mp hx
      obtain ⟨second, rest, rfl⟩ := List.exists_cons_of_ne_nil
        ((mem_rowsIn hproper (at?_child hproper hat hc')).mp hnames).1
      exact ⟨second, rest, rfl⟩
    rw [rowsIn_folder hproper hat, List.pairwise_append, List.pairwise_map, List.pairwise_flatMap]
    refine ⟨?_, ⟨fun c hc => ?_, ?_⟩, ?_⟩
    · refine (pairwise_lt_mergeSort id ?_).imp fun h => .files h
      simpa using hsub _
    · -- the files below one folder
      have hc' := List.mem_of_mem_filter (List.mem_mergeSort.mp hc)
      rw [List.pairwise_map]
      exact (ih _ (hsize ▸ sizeOf_child_lt hc') (at?_child hproper hat hc') rfl).imp .within
    · -- the files below two folders
      refine (pairwise_lt_mergeSort (fun c : String × Entry => c.1) (hsub _)).imp_of_mem
        fun {c d} hc hd h x hx y hy => ?_
      obtain ⟨_, _, rfl⟩ := hrow c hc x hx
      obtain ⟨_, _, rfl⟩ := hrow d hd y hy
      exact .folders h
    · rintro x hx y hy
      obtain ⟨name, -, rfl⟩ := List.mem_map.mp hx
      obtain ⟨d, hd, hy⟩ := List.mem_flatMap.mp hy
      obtain ⟨_, _, rfl⟩ := hrow d hd y hy
      exact .above

/-! ### The files at a path -/

/-- **A walk tells each file once, in its order**: from a path that leads to a folder, the files
that folders other than the hidden one lead to, each by the path that its names make. -/
theorem filesAt?_of_folder {path : String} (hproper : top.IsProper)
    (hroot : top.locate (Path.ofString path).toString = .ok here)
    (hfolder : top.nodeAt here = some .folder) :
    ∃ rows : List (List String),
      top.filesAt? path = .ok (some (rows.map fun names =>
        Path.below (Path.ofString path).toString names)) ∧
      (∀ names, names ∈ rows ↔ LeadsToFile top here names) ∧
      (rows.map fun names => Path.below (Path.ofString path).toString names).Nodup ∧
      rows.Pairwise Precedes := by
  obtain ⟨cs, hat⟩ := nodeAt_eq_folder_iff.mp hfolder
  have hfiles : top.filesAt? path = .ok (some ((rowsIn top here (.folder cs)).map fun names =>
      Path.below (Path.ofString path).toString names)) := by
    unfold filesAt?
    dsimp only
    rw [hroot]
    dsimp only
    rw [hat]
    dsimp only
    simp only [filesBelow, hat, rowsIn, List.map_map, Function.comp_def]
  refine ⟨_, hfiles, fun names => ?_, (apart_filesAt hproper hfiles).1,
    pairwise_rowsIn hproper hat⟩
  rw [mem_rowsIn hproper hat]
  constructor
  · rintro ⟨hne, hl⟩
    exact (mem_filesIn_iff_leadsToFile hproper hat hne).mp hl
  · intro hleads
    have hne : names ≠ [] := by
      obtain ⟨front, name, rfl, -⟩ := hleads
      simp
    exact ⟨hne, (mem_filesIn_iff_leadsToFile hproper hat hne).mpr hleads⟩

/-- A folder with a file, a folder, the hidden folder, links to a folder and one to nowhere. -/
def shelf : List (String × Entry) :=
  [("b.go", .file [] 0o644), ("sub", .folder [("x.go", .file [] 0o644)]),
    (".git", .folder [("config", .file [] 0o644)]), ("back", .link "sub"), ("up", .link "/src/sub"),
    ("gone", .link "lost")]

/-- The run takes place beside the folder. -/
def shelved : Tree := ⟨.folder [("src", .folder shelf), ("run", .folder [])], ["run"], rfl⟩

lemma shelved_isProper : shelved.IsProper := by
  have hnone : (Entry.folder []).IsProper :=
    Entry.isProper_folder List.nodup_nil (by simp) (by simp)
  have hfile : ∀ name : String, Path.IsName name →
      (Entry.folder [(name, .file [] 0o644)]).IsProper := fun name hname => by
    refine Entry.isProper_folder (by simp) (by simpa using hname) fun c hc =>
      Entry.isProper_of_not_isFolder ?_
    obtain rfl := List.mem_singleton.mp hc
    rfl
  have hshelf : (Entry.folder shelf).IsProper := by
    refine Entry.isProper_folder (by decide) (by decide) ?_
    simp only [shelf, List.forall_mem_cons]
    exact ⟨Entry.isProper_of_not_isFolder rfl, hfile _ (by decide), hfile _ (by decide),
      Entry.isProper_of_not_isFolder rfl, Entry.isProper_of_not_isFolder rfl,
      Entry.isProper_of_not_isFolder rfl, by simp⟩
  refine Entry.isProper_folder (by decide) (by decide) fun c hc => ?_
  rcases List.mem_pair.mp hc with rfl | rfl
  · exact hshelf
  · exact hnone

lemma locate_shelved : shelved.locate "/src" = .ok ["src"] := by
  have hsteps : steps "/src" = ["src"] := by decide
  have horigin : origin "/src" shelved.base = [] := by decide
  have hnext : shelved.next true linkLimit [] ["src"] = .onward linkLimit ["src"] [] := rfl
  rw [locate, if_neg (by decide), hsteps, horigin, follow_eq, hnext]
  exact follow.eq_1 ..

lemma follow_back : shelved.follow true linkLimit ["src"] ["back"] = .ok ["src", "sub"] := by
  have hback : shelved.next true linkLimit ["src"] ["back"] = .onward 39 ["src"] ["sub"] := by
    have hsteps : steps "sub" = ["sub"] := by decide
    exact congrArg (Next.onward 39 ["src"]) (congrArg (· ++ []) hsteps)
  have hsub : shelved.next true 39 ["src"] ["sub"] = .onward 39 ["src", "sub"] [] := rfl
  rw [follow_eq, hback]
  dsimp only
  rw [follow_eq, hsub]
  exact follow.eq_1 ..

lemma follow_up : shelved.follow true linkLimit ["src"] ["up"] = .ok ["src", "sub"] := by
  have hup : shelved.next true linkLimit ["src"] ["up"] = .onward 39 [] ["src", "sub"] := by
    have hsteps : steps "/src/sub" = ["src", "sub"] := by decide
    exact congrArg (Next.onward 39 []) (congrArg (· ++ []) hsteps)
  have hsrc : shelved.next true 39 [] ["src", "sub"] = .onward 39 ["src"] ["sub"] := rfl
  have hsub : shelved.next true 39 ["src"] ["sub"] = .onward 39 ["src", "sub"] [] := rfl
  rw [follow_eq, hup]
  dsimp only
  rw [follow_eq, hsrc]
  dsimp only
  rw [follow_eq, hsub]
  exact follow.eq_1 ..

/-- Neither what the hidden folder holds nor a link to a folder is told. -/
theorem shelved_filesAt :
    shelved.IsProper ∧ shelved.locate (Path.ofString "/./src/").toString = .ok ["src"] ∧
      shelved.nodeAt ["src"] = some .folder ∧
      ∃ rows : List (List String), shelved.filesAt? "/./src/" = .ok (some (rows.map fun names =>
          Path.below "/src" names)) ∧
        ["sub", "x.go"] ∈ rows ∧ [".git", "config"] ∉ rows ∧ ["back"] ∉ rows ∧ ["up"] ∉ rows := by
  have hpath : (Path.ofString "/./src/").toString = "/src" := by decide
  have hroot : shelved.locate (Path.ofString "/./src/").toString = .ok ["src"] := by
    rw [hpath, locate_shelved]
  have hfolder : shelved.nodeAt ["src"] = some .folder := rfl
  obtain ⟨rows, hrows, hmem, -, -⟩ := filesAt?_of_folder shelved_isProper hroot hfolder
  rw [hpath] at hrows
  refine ⟨shelved_isProper, hroot, hfolder, rows, hrows, ?_, ?_, ?_, ?_⟩
  · rw [hmem, leadsToFile_cons (by simp), leadsToFile_singleton]
    exact ⟨by decide, rfl, .file rfl⟩
  · rw [hmem, leadsToFile_cons (by simp)]
    exact fun h => h.1 rfl
  · rw [hmem, leadsToFile_singleton]
    rintro (h | ⟨-, hno⟩)
    · cases h
    · exact hno _ follow_back rfl
  · rw [hmem, leadsToFile_singleton]
    rintro (h | ⟨-, hno⟩)
    · cases h
    · exact hno _ follow_up rfl

end Letterhead.Tree
