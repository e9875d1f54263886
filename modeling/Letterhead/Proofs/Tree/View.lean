import Letterhead.Proofs.Tree.Replace

/-!
What is seen of a tree at a path.

A file is read at its path, and written in the folder that the path names. So there are two ways
through the tree to be looked at. A change that spares a path, in that the path neither leads to the
changed place nor passes a link there, is not seen at it.
-/

namespace Letterhead.Tree

/-- What is to be known of a tree to bring the file at a path to its normal form. -/
structure View where
  content : Except IoError Bytes
  mode : Except IoError Nat
  place : Except IoError Location
  hindrance : Option IoError

def view (t : Tree) (path : String) (outside : ReplaceStep → Option IoError) : View :=
  ⟨t.read path, t.modeAt path, t.locate path false, t.hindrance? path outside⟩

/-- The locations on which it depends where a path leads, and into which folder its new file
comes. -/
def regarded (t : Tree) (path : String) : List Location :=
  t.passed true linkLimit (origin path t.base) (steps path) ++
    t.passed true linkLimit [] ((t.namesFromTop path).dropLast ++ ["."])

/-- Two trees look alike at a path. -/
structure Alike (t u : Tree) (path : String) : Prop where
  base : u.base = t.base
  face : ∀ x ∈ t.regarded path, (u.nodeAt x).map Node.face = (t.nodeAt x).map Node.face
  found : ∀ l, t.locate path = .ok l → u.nodeAt l = t.nodeAt l

/-- A file that is put in a place is not seen at a path. -/
structure Spares (t : Tree) (place : Location) (path : String) : Prop where
  found : t.locate path ≠ .ok place
  file : place ∈ t.regarded path → ∃ data mode, t.nodeAt place = some (.file data mode)

variable {t u w : Tree} {path : String}

lemma Alike.refl (t : Tree) (path : String) : t.Alike t path :=
  ⟨rfl, fun _ _ => rfl, fun _ _ => rfl⟩

lemma Alike.update (h : t.Alike u path) {place : Location} {data : Bytes} {mode : Nat}
    (hw : u.IsUpdate w place (some (.file data mode))) (hspares : t.Spares place path) :
    t.Alike w path where
  base := hw.base.trans h.base
  face x hx := by
    by_cases hplace : x = place
    · subst hplace
      obtain ⟨data', mode', hfile⟩ := hspares.file hx
      rw [hw.nodeAt, Function.update_self, hfile]
      rfl
    · rw [hw.nodeAt, Function.update_of_ne hplace, h.face x hx]
  found l hl := by
    rw [hw.nodeAt, Function.update_of_ne, h.found l hl]
    rintro rfl
    exact hspares.found hl

lemma Spares.locate_false_ne {place : Location} (h : t.Spares place path) {bs : Bytes}
    (hread : t.read path = .ok bs) : t.locate path false ≠ .ok place := by
  intro hplace
  obtain ⟨l, mode, place', hlocate, -, -, hplace', hl⟩ := exists_of_read hread
  obtain rfl := Except.ok.inj (hplace'.symm.trans hplace)
  rcases hl with rfl | hlink
  · exact h.found hlocate
  · obtain ⟨target, htarget⟩ := hlink.link
    have hpassed := mem_passed_of_follow (locate_eq_ok_iff.mp hplace).2
    obtain ⟨data, mode, hfile⟩ :=
      h.file (List.mem_append_left _ (passed_false_subset hpassed))
    cases htarget.symm.trans hfile

section Congr

variable (h : t.Alike u path)

include h

lemma Alike.locate (last : Bool) : u.locate path last = t.locate path last := by
  unfold Tree.locate
  split
  · rfl
  rw [h.base]
  refine follow_congr fun x hx => h.face x (List.mem_append_left _ ?_)
  cases last with
  | true => exact hx
  | false => exact passed_false_subset hx

lemma Alike.hindrance? (outside : ReplaceStep → Option IoError) :
    u.hindrance? path outside = t.hindrance? path outside := by
  have hfolder : u.folderOf path = t.folderOf path := by
    rw [folderOf, namesFromTop, h.base]
    exact follow_congr fun x hx => h.face x (List.mem_append_right _ hx)
  unfold Tree.hindrance?
  rw [hfolder]
  cases hhere : t.folderOf path with
  | error e => rfl
  | ok here =>
    have hface := h.face here (List.mem_append_right _ (mem_passed_of_follow hhere))
    have hiff : u.nodeAt here = some .folder ↔ t.nodeAt here = some .folder := by
      rw [← map_face_eq_folder, hface, map_face_eq_folder]
    simp only [hiff]

/-- **Trees that look alike at a path show the same there.** -/
theorem Alike.view (outside : ReplaceStep → Option IoError) :
    u.view path outside = t.view path outside := by
  have hlocate := h.locate true
  rw [Tree.view, Tree.view, read_congr hlocate h.found, modeAt_congr hlocate h.found,
    h.locate false, h.hindrance? outside]

end Congr

/-! ### Entries at the top -/

/-- The path names an entry at the top, from there. -/
structure IsAtTop (path name : String) : Prop where
  nonempty : path ≠ ""
  steps : steps path = [name] ∨ steps path = [".", name]
  looked : looked [] [name] = some [name]
  folder : (Path.collapse (Path.ofString path).names).dropLast = []

instance (path name : String) : Decidable (IsAtTop path name) :=
  decidable_of_iff
    (path ≠ "" ∧ (steps path = [name] ∨ steps path = [".", name]) ∧
      looked [] [name] = some [name] ∧ (Path.collapse (Path.ofString path).names).dropLast = [])
    ⟨fun ⟨h1, h2, h3, h4⟩ => ⟨h1, h2, h3, h4⟩, fun ⟨h1, h2, h3, h4⟩ => ⟨h1, h2, h3, h4⟩⟩

lemma origin_nil (path : String) : origin path [] = [] := by
  unfold origin
  split <;> rfl

namespace IsAtTop

variable {name target : String} {bs : Bytes} {mode : Nat} (h : IsAtTop path name)

include h

lemma follow_steps (last : Bool) (links : Nat) :
    t.follow last links [] (Tree.steps path) = t.follow last links [] [name] := by
  rcases h.steps with hsteps | hsteps
  · rw [hsteps]
  · rw [hsteps, follow, if_pos rfl]

variable (hbase : t.base = [])

include hbase

lemma locate_eq (last : Bool) : t.locate path last = t.follow last linkLimit [] [name] := by
  rw [locate, if_neg h.nonempty, hbase, origin_nil, h.follow_steps]

lemma folderOf_eq : t.folderOf path = .ok [] := by
  rw [folderOf, namesFromTop, hbase, origin_nil, List.nil_append, h.folder, List.nil_append,
    follow, if_pos rfl, follow]

lemma view_eq {l : Location} (hlocate : t.locate path = .ok l)
    (hfile : t.nodeAt l = some (.file bs mode)) (hplace : t.locate path false = .ok [name]) :
    t.view path (fun _ => none) = ⟨.ok bs, .ok mode, .ok [name], none⟩ := by
  have hhindrance : t.hindrance? path (fun _ => none) = none := by
    rw [hindrance?, h.folderOf_eq hbase]
    simp [t.nodeAt_nil]
  rw [view, read_eq_ok_iff.mpr ⟨l, mode, hlocate, hfile⟩, modeAt_of_file hlocate hfile, hplace,
    hhindrance]

lemma locate_of_file (hfile : t.nodeAt [name] = some (.file bs mode)) (last : Bool) :
    t.locate path last = .ok [name] := by
  rw [h.locate_eq hbase, follow_eq, next_of_looked h.looked, hfile]
  rfl

lemma read_of_file (hfile : t.nodeAt [name] = some (.file bs mode)) : t.read path = .ok bs :=
  read_eq_ok_iff.mpr ⟨[name], mode, h.locate_of_file hbase hfile true, hfile⟩

lemma view_of_file (hfile : t.nodeAt [name] = some (.file bs mode)) :
    t.view path (fun _ => none) = ⟨.ok bs, .ok mode, .ok [name], none⟩ :=
  h.view_eq hbase (h.locate_of_file hbase hfile true) hfile (h.locate_of_file hbase hfile false)

variable (hlink : t.nodeAt [name] = some (.link target)) (htarget : IsAtTop target target)

include hlink htarget

lemma locate_of_link :
    t.locate path = t.follow true 39 [] [target] ∧ t.locate path false = .ok [name] := by
  rw [h.locate_eq hbase, h.locate_eq hbase, follow_eq, follow_eq t false, next_of_looked h.looked,
    next_of_looked h.looked, hlink]
  refine ⟨?_, rfl⟩
  simp only [nextAt, linkLimit, List.isEmpty_nil, Bool.not_true, Bool.and_false, Bool.false_eq_true,
    if_false, origin_nil, List.append_nil]
  exact htarget.follow_steps true 39

lemma view_of_link (hfile : t.nodeAt [target] = some (.file bs mode)) :
    t.view path (fun _ => none) = ⟨.ok bs, .ok mode, .ok [name], none⟩ := by
  obtain ⟨hlocate, hplace⟩ := h.locate_of_link hbase hlink htarget
  refine h.view_eq hbase (l := [target]) ?_ hfile hplace
  rw [hlocate, follow_eq, next_of_looked htarget.looked, hfile]
  rfl

lemma locate_of_no_target (hnone : t.nodeAt [target] = none) :
    t.locate path = .error .notFound := by
  rw [(h.locate_of_link hbase hlink htarget).1, follow_eq, next_of_looked htarget.looked, hnone]
  rfl

lemma read_of_no_target (hnone : t.nodeAt [target] = none) : t.read path = .error .notFound := by
  rw [read, find?, h.locate_of_no_target hbase hlink htarget hnone]
  rfl

end IsAtTop

end Letterhead.Tree
