import Mathlib.Data.List.Nodup
import Mathlib.Data.List.Perm.Subperm
import Letterhead.Tree.Replace
import Letterhead.Proofs.Tree.Locate

/-!
A file of its own beside the one at a path.

It has a name that is not in use: no entry of the folder has it, and neither the path nor a link
goes by it. So while it is there the path leads where it led, and taking it away again leaves every
node as it was. Moving it over the place of the path changes the node there, and no other.
-/

namespace Letterhead.Tree

/-! ### A name that is not in use -/

lemma freeName_not_mem (used : List String) : freeName used ∉ used := by
  set candidate := fun n : Nat => ".letterhead-" ++ Nat.repr n
  set candidates := (List.range (used.length + 1)).map candidate
  have hname : freeName used = (candidates.find? (· ∉ used)).getD (candidate 0) := rfl
  cases hfind : candidates.find? (· ∉ used) with
  | some name =>
    rw [hname, hfind, Option.getD_some]
    simpa using List.find?_some hfind
  | none =>
    -- one of so many names is free
    have hinj : Function.Injective candidate := by
      intro m n h
      have hdigits : Nat.toDigits 10 m = Nat.toDigits 10 n :=
        String.ofList_injective ((String.append_right_inj _).mp h)
      rw [← Nat.ofDigitChars_toDigits (b := 10) (n := m) (by omega) (by omega), hdigits,
        Nat.ofDigitChars_toDigits (by omega) (by omega)]
    have hsub : candidates ⊆ used := fun name hmem => by
      simpa using List.find?_eq_none.mp hfind name hmem
    have hle := (List.subperm_of_subset (List.nodup_range.map hinj) hsub).length_le
    simp only [List.length_map, List.length_range] at hle
    omega

lemma linkNames_subset_of_mem {cs : List (String × Entry)} {name : String} {c : Entry}
    (h : (name, c) ∈ cs) : c.linkNames ⊆ Entry.linkNamesIn cs := by
  induction cs with
  | nil => cases h
  | cons d cs ih =>
    obtain ⟨k, d⟩ := d
    rw [Entry.linkNamesIn]
    rcases List.mem_cons.mp h with heq | h
    · cases heq
      exact List.subset_append_left _ _
    · exact List.Subset.trans (ih h) (List.subset_append_right _ _)

lemma Entry.mem_linkNames {e : Entry} {l : Location} {target name : String}
    (h : e.nodeAt l = some (.link target)) (hname : name ∈ steps target) : name ∈ e.linkNames := by
  induction l generalizing e with
  | nil =>
    rcases e with _ | target' | _
    · cases h
    · cases h
      rw [linkNames]
      exact hname
    · cases h
  | cons k l ih =>
    rcases e with _ | _ | cs
    · cases h
    · cases h
    rw [nodeAt_cons, child?_folder] at h
    obtain ⟨c, hc, hbelow⟩ := Option.bind_eq_some_iff.mp h
    obtain ⟨front, back, rfl, -⟩ := List.lookup_eq_some_iff.mp hc
    rw [linkNames]
    exact linkNames_subset_of_mem (List.mem_append_right _ List.mem_cons_self) (ih hbelow)

/-- Neither the path nor a link goes by a name, and it does not lead to the folder of the run. -/
structure IsUnused (t : Tree) (path name : String) : Prop where
  base : name ∉ t.base
  path : name ∉ steps path
  links : ∀ l target, t.nodeAt l = some (.link target) → name ∉ steps target

lemma not_mem_origin {here : Location} {name : String} (path : String) (h : name ∉ here) :
    name ∉ origin path here := by
  unfold origin
  split
  · exact List.not_mem_nil
  · exact h

section Passed

variable {t : Tree} {last : Bool} {links links' : Nat} {here here' l : Location}
  {names names' : List String} {name : String}

lemma eq_or_looked_of_arrived (h : t.next last links here names = .arrived l) :
    l = here ∨ looked here names = some l := by
  rcases names with _ | ⟨first, rest⟩
  · cases h
    exact .inl rfl
  cases hlooked : looked here (first :: rest) with
  | none =>
    -- a step at which nothing is looked at does not end the way
    simp only [looked, ite_eq_left_iff, reduceCtorEq, imp_false, not_not] at hlooked
    unfold next at h
    dsimp only at h
    split_ifs at h
    rcases hlooked with h | h | h <;> contradiction
  | some x =>
    rw [next_of_looked hlooked] at h
    generalize t.nodeAt x = n at h
    right
    unfold nextAt at h
    split at h
    · cases h
    · cases h
    · split at h
      · cases h
        rfl
      · cases h
    · split at h
      · cases h
        rfl
      · split at h <;> cases h

variable (hlinks : ∀ l target, t.nodeAt l = some (.link target) → name ∉ steps target)
  (hhere : name ∉ here) (hnames : name ∉ names)

include hlinks hhere hnames

lemma not_mem_of_onward (h : t.next last links here names = .onward links' here' names') :
    name ∉ here' ∧ name ∉ names' := by
  rcases names with _ | ⟨first, rest⟩
  · cases h
  obtain ⟨hfirst, hrest⟩ := List.ne_and_not_mem_of_not_mem_cons hnames
  unfold next at h
  dsimp only at h
  split_ifs at h
  · cases h
    exact ⟨hhere, hrest⟩
  · cases h
    exact ⟨fun hmem => hhere (List.mem_of_mem_dropLast hmem), hrest⟩
  · rcases nextAt_eq_onward h with ⟨-, -, rfl, rfl⟩ | ⟨target, hlink, -, rfl, rfl⟩
    · exact ⟨by simp [hhere, hfirst], hrest⟩
    · exact ⟨not_mem_origin target hhere, by simp [hlinks _ _ hlink, hrest]⟩

lemma not_mem_of_mem_passed : ∀ x ∈ t.passed last links here names, name ∉ x := by
  induction links, here, names using t.follow_induction last with
  | step links here names ih =>
    intro x hx
    have hlooked : ∀ x, looked here names = some x → name ∉ x := fun x hx => by
      rcases names with _ | ⟨first, rest⟩
      · cases hx
      · obtain ⟨-, -, -, rfl⟩ := looked_cons.mp hx
        simp [hhere, (List.ne_and_not_mem_of_not_mem_cons hnames).1]
    rw [passed, List.mem_append, Option.mem_toList] at hx
    rcases hx with hx | hx
    · exact hlooked x hx
    split at hx
    · next l hnext =>
      obtain rfl := List.mem_singleton.mp hx
      rcases eq_or_looked_of_arrived hnext with rfl | hl
      · exact hhere
      · exact hlooked x hl
    · cases hx
    · next hnext =>
      obtain ⟨hhere', hnames'⟩ := not_mem_of_onward hlinks hhere hnames hnext
      exact ih _ _ _ hnext hhere' hnames' x hx

end Passed

/-! ### Making the file -/

section Beside

variable {t w : Tree} {here : Location} {path name : String} {n : Option Node}
  (hw : t.IsUpdate w (here ++ [name]) n)

include hw

section Unused

variable (hunused : t.IsUnused path name)

include hunused

lemma nodeAt_passed_beside {last : Bool} {x : Location}
    (hx : x ∈ t.passed last linkLimit (origin path t.base) (steps path)) :
    w.nodeAt x = t.nodeAt x := by
  rw [hw.nodeAt, Function.update_of_ne]
  rintro rfl
  exact not_mem_of_mem_passed hunused.links (not_mem_origin path hunused.base) hunused.path _ hx
    (by simp)

lemma locate_beside (last : Bool) : w.locate path last = t.locate path last := by
  unfold locate
  split
  · rfl
  · rw [hw.base]
    exact follow_congr fun x hx => congrArg _ (nodeAt_passed_beside hw hunused hx)

lemma modeAt_beside : w.modeAt path = t.modeAt path :=
  modeAt_congr (locate_beside hw hunused true) fun _ hl =>
    nodeAt_passed_beside hw hunused (mem_passed_of_follow (locate_eq_ok_iff.mp hl).2)

end Unused

variable (hhere : t.nodeAt here = some .folder) (hn : n ≠ some .folder)

include hhere hn

lemma nodeAt_here_beside :
    w.nodeAt here = some .folder ∧ w.nodeAt (here ++ [name]) ≠ some .folder := by
  rw [hw.nodeAt, Function.update_self, Function.update_of_ne (by simp)]
  exact ⟨hhere, hn⟩

lemma isUpdate_put_beside (data : Bytes) (mode : Nat) :
    t.IsUpdate (w.put (here ++ [name]) (.file data mode)) (here ++ [name])
      (some (.file data mode)) := by
  obtain ⟨hfolder, hold⟩ := nodeAt_here_beside hw hhere hn
  have hput := isUpdate_put hfolder hold (Entry.node_file_ne data mode)
  refine ⟨?_, hput.base.trans hw.base⟩
  rw [hput.nodeAt, hw.nodeAt, Function.update_idem]
  rfl

lemma remove_beside (hfree : t.nodeAt (here ++ [name]) = none) :
    (w.remove (here ++ [name])).IsSame t := by
  obtain ⟨hfolder, hold⟩ := nodeAt_here_beside hw hhere hn
  have hremove := isUpdate_remove hfolder hold
  refine ⟨?_, hremove.base.trans hw.base⟩
  rw [hremove.nodeAt, hw.nodeAt, Function.update_idem, ← hfree, Function.update_eq_self]

end Beside

lemma createBeside_of_error {t : Tree} {path : String} {e : IoError}
    (hfolder : t.folderOf path = .error e) : t.createBeside path = .error e := by
  simp [createBeside, hfolder, bind, Except.bind]

section Create

variable {t : Tree} {path : String} {here : Location} (hfolder : t.folderOf path = .ok here)

include hfolder

lemma createBeside_eq (hhere : t.nodeAt here = some .folder) :
    ∃ name, t.nodeAt (here ++ [name]) = none ∧ t.IsUnused path name ∧
      t.createBeside path = .ok (here ++ [name], t.put (here ++ [name]) (.file [] newMode)) := by
  obtain ⟨cs, hcs⟩ := nodeAt_eq_folder_iff.mp hhere
  set used := cs.map (·.1) ++ t.base ++ steps path ++ t.top.linkNames with hused
  have hfree : freeName used ∉ used := freeName_not_mem used
  simp only [hused, List.mem_append, not_or] at hfree
  obtain ⟨⟨⟨hnames, hbase⟩, hpath⟩, hlinks⟩ := hfree
  refine ⟨freeName used, ?_, ⟨hbase, hpath, fun l target hlink hmem => hlinks ?_⟩, ?_⟩
  · rw [nodeAt_eq_none_iff, at?_append, hcs, Option.bind_some, Entry.at?_cons,
      Entry.child?_folder, List.lookup_eq_none_iff.mpr fun c hc => ?_, Option.bind_none]
    rw [bne_iff_ne]
    rintro heq
    exact hnames (heq ▸ List.mem_map_of_mem hc)
  · exact Entry.mem_linkNames hlink hmem
  · simp [createBeside, hfolder, hcs, hused, bind, Except.bind, pure, Except.pure]

lemma createBeside_of_ne (hhere : t.nodeAt here ≠ some .folder) :
    t.createBeside path = .error .notDirectory := by
  have hno : ∀ cs, t.at? here ≠ some (.folder cs) := fun cs h =>
    hhere (nodeAt_eq_folder_iff.mpr ⟨cs, h⟩)
  unfold createBeside
  rw [hfolder]
  simp only [bind, Except.bind]
  rfl

end Create

/-! ### Moving the file -/

/-- Why nothing can be moved to a path. -/
def blocked? (t : Tree) (path : String) : Option IoError :=
  if endsIn path "/" then some .notDirectory
  else
    match t.locate path false with
    | .error e => some e
    | .ok place =>
      match t.nodeAt place with
      | some (.file _ _) => none
      | some (.link _) => none
      | some .folder => some .isDirectory
      | none => some .notFound

lemma blocked?_eq_none_iff {t : Tree} {path : String} :
    t.blocked? path = none ↔ endsIn path "/" = false ∧
      ∃ place n, t.locate path false = .ok place ∧ t.nodeAt place = some n ∧ n ≠ .folder := by
  unfold blocked?
  cases endsIn path "/" with
  | true => simp
  | false =>
    cases t.locate path false with
    | error e => simp
    | ok place => rcases hnode : t.nodeAt place with _ | _ | _ | _ <;> simp [hnode]

section Move

variable {t w : Tree} {path name : String} {here : Location} {data : Bytes} {mode : Nat}
  (hhere : t.nodeAt here = some .folder) (hfree : t.nodeAt (here ++ [name]) = none)
  (hunused : t.IsUnused path name)
  (hw : t.IsUpdate w (here ++ [name]) (some (.file data mode)))

include hhere hfree hw in
/-- The new file is taken away, and put in another place. -/
lemma isUpdate_remove_put {place : Location} {n : Node} (hn : t.nodeAt place = some n)
    (hleaf : n ≠ .folder) :
    t.IsUpdate ((w.remove (here ++ [name])).put place (.file data mode)) place
      (some (.file data mode)) := by
  have hremove := remove_beside hw hhere (by simp) hfree
  obtain ⟨there, last, rfl⟩ : ∃ there last, place = there ++ [last] := by
    rcases List.eq_nil_or_concat' place with rfl | h
    · rw [nodeAt_nil] at hn
      exact absurd (Option.some.inj hn).symm hleaf
    · exact h
  have hthere : (w.remove (here ++ [name])).nodeAt there = some .folder := by
    rw [hremove.nodeAt]
    exact nodeAt_folder_of_append (by rw [hn]; simp)
  have hold : (w.remove (here ++ [name])).nodeAt (there ++ [last]) ≠ some .folder := by
    rw [hremove.nodeAt, hn]
    simpa using hleaf
  have hput := isUpdate_put hthere hold (Entry.node_file_ne data mode)
  refine ⟨?_, hput.base.trans hremove.base⟩
  rw [hput.nodeAt, hremove.nodeAt]
  rfl

include hunused hw

lemma moveTo_of_blocked {e : IoError} (h : t.blocked? path = some e) :
    w.moveTo (here ++ [name]) path = .error e := by
  unfold blocked? at h
  unfold moveTo
  rw [locate_beside hw hunused]
  split at h
  · next hslash =>
    cases h
    rw [if_pos hslash]
    rfl
  next hslash =>
  rw [if_neg hslash]
  split at h
  · next hlocate =>
    cases h
    rw [hlocate]
    rfl
  next place hlocate =>
  -- what stands in the place stood there before
  have hsame : w.nodeAt place = t.nodeAt place :=
    nodeAt_passed_beside hw hunused (mem_passed_of_follow (locate_eq_ok_iff.mp hlocate).2)
  rw [hlocate]
  simp only [bind, Except.bind, pure, Except.pure]
  split at h
  · cases h
  · cases h
  · next hnode =>
    cases h
    obtain ⟨cs, hcs⟩ := nodeAt_eq_folder_iff.mp (hsame.trans hnode)
    rw [hcs]
    cases w.at? (here ++ [name]) <;> rfl
  · next hnode =>
    cases h
    rw [nodeAt_eq_none_iff.mp (hsame.trans hnode)]
    cases w.at? (here ++ [name]) <;> rfl

include hhere hfree

lemma exists_moveTo {place : Location} {n : Node} (hslash : endsIn path "/" = false)
    (hplace : t.locate path false = .ok place) (hn : t.nodeAt place = some n)
    (hleaf : n ≠ .folder) :
    ∃ u, w.moveTo (here ++ [name]) path = .ok u ∧
      t.IsUpdate u place (some (.file data mode)) := by
  have hlocate : w.locate path false = .ok place := (locate_beside hw hunused false).trans hplace
  have hnew : w.at? (here ++ [name]) = some (.file data mode) :=
    nodeAt_eq_file_iff.mp (by rw [hw.nodeAt, Function.update_self])
  have hne : place ≠ here ++ [name] := by
    rintro rfl
    rw [hfree] at hn
    cases hn
  obtain ⟨e, he, hnode⟩ : ∃ e, w.at? place = some e ∧ e.node = n := by
    have hwplace : w.nodeAt place = some n := by
      rw [hw.nodeAt, Function.update_of_ne hne, hn]
    exact Option.map_eq_some_iff.mp hwplace
  have hmove : w.moveTo (here ++ [name]) path =
      .ok ((w.remove (here ++ [name])).put place (.file data mode)) := by
    rcases e with _ | _ | _
    · simp [moveTo, hslash, hlocate, hnew, he, bind, Except.bind, pure, Except.pure]
    · simp [moveTo, hslash, hlocate, hnew, he, bind, Except.bind, pure, Except.pure]
    · exact absurd hnode.symm hleaf
  exact ⟨_, hmove, isUpdate_remove_put hhere hfree hw hn hleaf⟩

end Move

end Letterhead.Tree
