import Mathlib.Data.List.Infix
import Mathlib.Logic.Function.Basic
import Letterhead.Tree.Basic

/-!
A tree as a map from locations to nodes.

A node is an entry without what lies below it. A file or link that is put into a folder, and one
that is taken out of it, changes the node at its own location and no other one.
-/

namespace Letterhead.Tree

/-- An entry without what lies below it. -/
inductive Node where
  | file (data : Bytes) (mode : Nat)
  | link (target : String)
  | folder
deriving DecidableEq

/-- What following a path sees of a node. -/
def Node.face : Node → Node
  | .file _ _ => .file [] 0
  | n => n

@[simp] lemma map_face_eq_folder {n : Option Node} :
    n.map Node.face = some .folder ↔ n = some .folder := by
  rcases n with _ | _ | _ | _ <;> simp [Node.face]

namespace Entry

/-! ### Entries at locations -/

lemma lookup_setChild_self (cs : List (String × Entry)) (name : String) (t : Entry) :
    (setChild cs name t).lookup name = some t := by
  unfold setChild
  split
  · next h =>
    obtain ⟨c, hc, hname⟩ := List.any_eq_true.mp h
    induction cs with
    | nil => cases hc
    | cons d cs ih =>
      obtain ⟨k, u⟩ := d
      by_cases hk : k = name
      · simp [hk]
      · have hk' : (name == k) = false := by simpa using Ne.symm hk
        rcases List.mem_cons.mp hc with rfl | hc
        · exact absurd (by simpa using hname) hk
        · rw [List.map_cons, if_neg hk, List.lookup_cons, hk']
          exact ih (List.any_eq_true.mpr ⟨c, hc, hname⟩) hc
  · next h =>
    rw [List.lookup_append, List.lookup_eq_none_iff.mpr, Option.none_or, List.lookup_cons_self]
    intro p hp
    have := List.any_eq_true.not.mp h
    simp only [not_exists, not_and, decide_eq_true_eq] at this
    simpa using Ne.symm (this p hp)

lemma lookup_setChild_of_ne (cs : List (String × Entry)) {name other : String} (h : other ≠ name)
    (t : Entry) : (setChild cs name t).lookup other = cs.lookup other := by
  have hne : (other == name) = false := by simpa using h
  unfold setChild
  split
  · next hany =>
    clear hany
    induction cs with
    | nil => rfl
    | cons d cs ih =>
      obtain ⟨k, u⟩ := d
      by_cases hk : k = name
      · simpa [hk, hne, List.lookup_cons] using ih
      · simp only [List.map_cons, if_neg hk, List.lookup_cons, ih]
  · rw [List.lookup_append]
    simp [List.lookup_cons, hne]

lemma lookup_filter_ne (cs : List (String × Entry)) {name other : String} (h : other ≠ name) :
    (cs.filter (·.1 ≠ name)).lookup other = cs.lookup other := by
  induction cs with
  | nil => rfl
  | cons d cs ih =>
    obtain ⟨k, u⟩ := d
    by_cases hk : k = name
    · have hne : (other == k) = false := by simpa [hk] using h
      rw [List.filter_cons_of_neg (by simpa using hk), ih, List.lookup_cons, hne]
    · rw [List.filter_cons_of_pos (by simpa using hk), List.lookup_cons, List.lookup_cons, ih]

lemma lookup_filter_self (cs : List (String × Entry)) (name : String) :
    (cs.filter (·.1 ≠ name)).lookup name = none := by
  rw [List.lookup_eq_none_iff]
  intro p hp
  simpa using Ne.symm (of_decide_eq_true (List.mem_filter.mp hp).2)

@[simp] lemma child?_folder (cs : List (String × Entry)) (name : String) :
    (folder cs).child? name = cs.lookup name :=
  rfl

lemma at?_cons (t : Entry) (name : String) (l : Location) :
    t.at? (name :: l) = (t.child? name).bind (·.at? l) := by
  rw [at?]
  cases t.child? name <;> rfl

@[simp] lemma at?_nil (t : Entry) : t.at? [] = some t := by
  rw [at?]

lemma put_cons (t : Entry) (name : String) (l : Location) (new : Entry) :
    t.put (name :: l) new =
      folder (setChild t.children name (((t.child? name).getD empty).put l new)) := by
  rw [put]

lemma at?_append (t : Entry) (l m : Location) : t.at? (l ++ m) = (t.at? l).bind (·.at? m) := by
  induction l generalizing t with
  | nil => rw [at?_nil]; rfl
  | cons name l ih =>
    rw [List.cons_append, at?_cons, at?_cons]
    cases t.child? name with
    | none => rfl
    | some c => exact ih c

/-! ### Nodes -/

def node : Entry → Node
  | file data mode => .file data mode
  | link target => .link target
  | folder _ => .folder

/-- The node at a location. -/
def nodeAt (e : Entry) (l : Location) : Option Node := (e.at? l).map node

@[simp] lemma nodeAt_nil (e : Entry) : e.nodeAt [] = some e.node := by simp [nodeAt]

lemma nodeAt_cons (e : Entry) (name : String) (l : Location) :
    e.nodeAt (name :: l) = (e.child? name).bind (·.nodeAt l) := by
  rw [nodeAt, at?_cons, Option.map_bind]
  rfl

lemma nodeAt_of_node_ne {t : Entry} (h : t.node ≠ .folder) {l : Location} (hl : l ≠ []) :
    t.nodeAt l = none := by
  rcases l with _ | ⟨name, l⟩
  · exact absurd rfl hl
  · rcases t with _ | _ | cs
    · rfl
    · rfl
    · exact absurd rfl h

/-! ### Changes in one folder -/

/-- The entry with those of one folder below it changed. -/
def edit (t : Entry) : Location → (List (String × Entry) → List (String × Entry)) → Entry
  | [], f => folder (f t.children)
  | name :: here, f =>
    folder (setChild t.children name (((t.child? name).getD empty).edit here f))

lemma put_concat (t : Entry) (here : Location) (name : String) (new : Entry) :
    t.put (here ++ [name]) new = t.edit here (setChild · name new) := by
  induction here generalizing t with
  | nil => rw [List.nil_append, put_cons, put, edit]
  | cons first here ih => rw [List.cons_append, put_cons, ih, edit]

lemma remove_concat {t : Entry} {here : Location} {cs : List (String × Entry)}
    (h : t.at? here = some (folder cs)) (name : String) :
    t.remove (here ++ [name]) = t.edit here (List.filter (·.1 ≠ name)) := by
  induction here generalizing t with
  | nil => rfl
  | cons first here ih =>
    rw [at?_cons] at h
    obtain ⟨c, hc, hhere⟩ := Option.bind_eq_some_iff.mp h
    have hremove : t.remove (first :: (here ++ [name])) =
        folder (setChild t.children first (c.remove (here ++ [name]))) := by
      rcases here with _ | ⟨k, here⟩ <;> simp [remove, hc]
    rw [List.cons_append, hremove, ih hhere, edit, hc, Option.getD_some]

section Edit

variable {t : Entry} {here : Location} {cs : List (String × Entry)}
  (h : t.at? here = some (folder cs)) {f : List (String × Entry) → List (String × Entry)}

include h

lemma nodeAt_edit_self (name : String) :
    (t.edit here f).nodeAt (here ++ [name]) = ((f cs).lookup name).map node := by
  induction here generalizing t with
  | nil =>
    obtain rfl := Option.some.inj ((at?_nil t).symm.trans h)
    rw [List.nil_append, edit, nodeAt_cons, child?_folder]
    simp only [children, nodeAt_nil]
    cases (f cs).lookup name <;> rfl
  | cons first here ih =>
    rw [at?_cons] at h
    obtain ⟨c, hc, hhere⟩ := Option.bind_eq_some_iff.mp h
    rw [edit, List.cons_append, nodeAt_cons, child?_folder, lookup_setChild_self, Option.bind_some,
      hc, Option.getD_some, ih hhere]

variable {name : String} (hother : ∀ k, k ≠ name → (f cs).lookup k = cs.lookup k)
  (hold : ∀ e ∈ cs.lookup name, e.node ≠ .folder)
  (hnew : ∀ e ∈ (f cs).lookup name, e.node ≠ .folder)

include hother hold hnew

lemma nodeAt_edit_of_ne {x : Location} (hx : x ≠ here ++ [name]) :
    (t.edit here f).nodeAt x = t.nodeAt x := by
  have hbelow : ∀ {o : Option Entry} {x : Location}, (∀ e ∈ o, e.node ≠ .folder) → x ≠ [] →
      o.bind (·.nodeAt x) = none := by
    intro o x ho hx
    cases o with
    | none => rfl
    | some e => exact nodeAt_of_node_ne (ho e rfl) hx
  induction here generalizing t x with
  | nil =>
    obtain rfl := Option.some.inj ((at?_nil t).symm.trans h)
    rcases x with _ | ⟨k, x⟩
    · rfl
    rw [edit, nodeAt_cons, nodeAt_cons, child?_folder, child?_folder]
    by_cases hk : k = name
    · subst hk
      have hne : x ≠ [] := fun h => hx (by rw [h]; rfl)
      rw [hbelow hold hne]
      exact hbelow hnew hne
    · exact congrArg (Option.bind · _) (hother k hk)
  | cons first here ih =>
    rw [at?_cons] at h
    obtain ⟨c, hc, hhere⟩ := Option.bind_eq_some_iff.mp h
    rcases x with _ | ⟨k, x⟩
    · rcases t with _ | _ | ts
      · cases hc
      · cases hc
      · rfl
    rw [edit, hc, Option.getD_some, nodeAt_cons, nodeAt_cons, child?_folder]
    by_cases hk : k = first
    · subst hk
      have hx' : x ≠ here ++ [name] := fun h => hx (by rw [h]; rfl)
      rw [lookup_setChild_self, hc, Option.bind_some, Option.bind_some, ih hhere hx']
    · rw [lookup_setChild_of_ne _ hk]
      rfl

end Edit

lemma node_file_ne (data : Bytes) (mode : Nat) : (file data mode).node ≠ .folder := by simp [node]

lemma any_isFolder_iff {o : Option Entry} :
    o.any isFolder = true ↔ o.map node = some .folder := by
  rcases o with _ | _ | _ | _ <;> simp [isFolder, node]

end Entry

/-! ### The nodes of a tree -/

/-- The node at a location. -/
def nodeAt (t : Tree) (l : Location) : Option Node := (t.at? l).map Entry.node

lemma at?_append (t : Tree) (l m : Location) : t.at? (l ++ m) = (t.at? l).bind (·.at? m) :=
  t.top.at?_append l m

lemma exists_folder_of_at?_append {t : Tree} {e : Entry} {here rest : Location} {name : String}
    (h : t.at? (here ++ name :: rest) = some e) : ∃ cs, t.at? here = some (.folder cs) := by
  rw [at?_append] at h
  obtain ⟨d, hd, hbelow⟩ := Option.bind_eq_some_iff.mp h
  rw [Entry.at?_cons] at hbelow
  rcases d with _ | _ | cs
  · cases hbelow
  · cases hbelow
  · exact ⟨cs, hd⟩

lemma nodeAt_eq_folder_iff {t : Tree} {l : Location} :
    t.nodeAt l = some .folder ↔ ∃ cs, t.at? l = some (.folder cs) := by
  unfold nodeAt
  constructor
  · intro h
    obtain ⟨e, he, hnode⟩ := Option.map_eq_some_iff.mp h
    rcases e with _ | _ | cs
    · cases hnode
    · cases hnode
    · exact ⟨cs, he⟩
  · rintro ⟨cs, hcs⟩
    rw [hcs]
    rfl

lemma nodeAt_eq_file_iff {t : Tree} {l : Location} {data : Bytes} {mode : Nat} :
    t.nodeAt l = some (.file data mode) ↔ t.at? l = some (.file data mode) := by
  unfold nodeAt
  constructor
  · intro h
    obtain ⟨e, he, hnode⟩ := Option.map_eq_some_iff.mp h
    rcases e with _ | _ | _
    · rw [he]
      obtain ⟨rfl, rfl⟩ := Node.file.inj hnode
      rfl
    · cases hnode
    · cases hnode
  · intro h
    rw [h]
    rfl

lemma nodeAt_eq_none_iff {t : Tree} {l : Location} : t.nodeAt l = none ↔ t.at? l = none :=
  Option.map_eq_none_iff

lemma nodeAt_folder_of_append {t : Tree} {here rest : Location} {name : String}
    (h : t.nodeAt (here ++ name :: rest) ≠ none) : t.nodeAt here = some .folder := by
  obtain ⟨n, hn⟩ := Option.ne_none_iff_exists'.mp h
  obtain ⟨e, he, -⟩ := Option.map_eq_some_iff.mp hn
  exact nodeAt_eq_folder_iff.mpr (exists_folder_of_at?_append he)

lemma nodeAt_base (t : Tree) : t.nodeAt t.base = some .folder :=
  Entry.any_isFolder_iff.mp t.base_isFolder

/-- At the top is a folder, because the run takes place in one. -/
lemma nodeAt_nil (t : Tree) : t.nodeAt [] = some .folder := by
  have hbase := t.nodeAt_base
  rcases h : t.base with _ | ⟨name, rest⟩
  · rwa [h] at hbase
  · rw [h] at hbase
    have hbelow : t.nodeAt ([] ++ name :: rest) ≠ none := by simp [hbase]
    exact nodeAt_folder_of_append hbelow

/-! ### Changes in a tree -/

/-- The trees have the same nodes, and the run takes place in the same folder of them. -/
structure IsSame (t u : Tree) : Prop where
  nodeAt : t.nodeAt = u.nodeAt
  base : t.base = u.base

lemma IsSame.refl (t : Tree) : t.IsSame t := ⟨rfl, rfl⟩

/-- The trees differ at most in the node at one location, which is this one in the second tree. -/
structure IsUpdate (t u : Tree) (l : Location) (n : Option Node) : Prop where
  nodeAt : u.nodeAt = Function.update t.nodeAt l n
  base : u.base = t.base

lemma base_withTop (t : Tree) (top : Entry) : (t.withTop top).base = t.base := by
  unfold withTop
  split <;> rfl

lemma isUpdate_withTop {t : Tree} {top : Entry} {l : Location} {n : Option Node}
    (hold : t.nodeAt l ≠ some .folder) (h : top.nodeAt = Function.update t.nodeAt l n) :
    t.IsUpdate (t.withTop top) l n := by
  have hne : t.base ≠ l := fun hbase => hold (hbase ▸ t.nodeAt_base)
  have hthere : (top.at? t.base).any Entry.isFolder = true := by
    rw [Entry.any_isFolder_iff]
    change top.nodeAt t.base = _
    rw [h, Function.update_of_ne hne, nodeAt_base]
  refine ⟨?_, t.base_withTop top⟩
  rw [withTop, dif_pos hthere]
  exact h

section Update

variable {t : Tree} {here : Location} {name : String} (hhere : t.nodeAt here = some .folder)
  (hold : t.nodeAt (here ++ [name]) ≠ some .folder)

include hhere hold

lemma exists_children_of_nodeAt :
    ∃ cs, t.at? here = some (.folder cs) ∧ ∀ e ∈ cs.lookup name, e.node ≠ .folder := by
  obtain ⟨cs, hcs⟩ := nodeAt_eq_folder_iff.mp hhere
  refine ⟨cs, hcs, fun e he hfolder => hold ?_⟩
  rw [nodeAt, at?_append, hcs, Option.bind_some, Entry.at?_cons, Entry.child?_folder,
    Option.mem_def.mp he, Option.bind_some, Entry.at?_nil, Option.map_some, hfolder]

/-- **Putting a file or a link into a folder** changes the node there and no other. -/
lemma isUpdate_put {new : Entry} (hnew : new.node ≠ .folder) :
    t.IsUpdate (t.put (here ++ [name]) new) (here ++ [name]) (some new.node) := by
  obtain ⟨cs, hcs, hleaf⟩ := exists_children_of_nodeAt hhere hold
  refine isUpdate_withTop hold ?_
  rw [Entry.put_concat, Function.eq_update_iff]
  refine ⟨by rw [Entry.nodeAt_edit_self hcs, Entry.lookup_setChild_self, Option.map_some],
    fun x hx => ?_⟩
  refine Entry.nodeAt_edit_of_ne hcs (fun k hk => Entry.lookup_setChild_of_ne cs hk _) hleaf
    (fun e he => ?_) hx
  rw [Entry.lookup_setChild_self] at he
  exact Option.some.inj he ▸ hnew

/-- **Taking a file or a link out of a folder** changes the node there and no other. -/
lemma isUpdate_remove : t.IsUpdate (t.remove (here ++ [name])) (here ++ [name]) none := by
  obtain ⟨cs, hcs, hleaf⟩ := exists_children_of_nodeAt hhere hold
  refine isUpdate_withTop hold ?_
  rw [Entry.remove_concat hcs, Function.eq_update_iff]
  refine ⟨by rw [Entry.nodeAt_edit_self hcs, Entry.lookup_filter_self, Option.map_none],
    fun x hx => ?_⟩
  refine Entry.nodeAt_edit_of_ne hcs (fun k hk => Entry.lookup_filter_ne cs hk) hleaf
    (fun e he => ?_) hx
  rw [Entry.lookup_filter_self] at he
  cases he

end Update

end Letterhead.Tree
