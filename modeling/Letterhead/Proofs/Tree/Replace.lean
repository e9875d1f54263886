import Letterhead.Proofs.Tree.Beside

/-!
Replacing a file.

The new content goes into a file of its own, under a name that is not in use, and this file is then
moved over the place of the old one. So one node changes, and none if anything keeps the file from
being replaced. Links are what is lost: where a link stood there is a file then. A path that led
through one leads nowhere afterwards, and no path leads elsewhere.
-/

namespace Letterhead.Tree

/-! ### Replacing -/

/-- What keeps what stands at a path from being replaced. -/
def refusal? (t : Tree) (path : String) (outside : ReplaceStep → Option IoError) :
    Option IoError :=
  match outside .create with
  | some e => some e
  | none =>
    match t.folderOf path with
    | .error e => some e
    | .ok here =>
      if t.nodeAt here = some .folder then
        (outside .fill).or ((outside .copyMode).or
          (match t.modeAt path with
          | .error e => some e
          | .ok _ => (outside .rename).or (t.blocked? path)))
      else some .notDirectory

section Cases

variable {t : Tree} {path : String} {outside : ReplaceStep → Option IoError}

/-- The steps behind the first one. The new file is made and filled, and taken away again if a later
step fails. -/
lemma replaceFile_of_folderOf {here : Location} (hcreate : outside .create = none)
    (hfolder : t.folderOf path = .ok here) (hhere : t.nodeAt here = some .folder) (data : Bytes) :
    ∃ u, match t.refusal? path outside with
      | some e => t.replaceFile path data outside = (.error e, u) ∧ u.IsSame t
      | none => t.replaceFile path data outside = (.ok (), u) ∧
          ∃ place mode n, t.locate path false = .ok place ∧ t.modeAt path = .ok mode ∧
            t.nodeAt place = some n ∧ n ≠ .folder ∧
            t.IsUpdate u place (some (.file data mode)) := by
  obtain ⟨name, hfree, hunused, hbeside⟩ := createBeside_eq hfolder hhere
  unfold refusal? replaceFile attempt
  rw [hcreate, hfolder]
  simp only [hbeside, if_pos hhere]
  set made := t.put (here ++ [name]) (.file [] newMode)
  have hmade : t.IsUpdate made (here ++ [name]) (some (.file [] newMode)) :=
    isUpdate_put hhere (by rw [hfree]; simp) (Entry.node_file_ne [] newMode)
  have hundone := remove_beside hmade hhere (by simp) hfree
  have hfilled := isUpdate_put_beside hmade hhere (by simp) data newMode
  have hmodeAt := modeAt_beside hfilled hunused
  cases outside .fill with
  | some e => exact ⟨made.remove (here ++ [name]), rfl, hundone⟩
  | none =>
    cases outside .copyMode with
    | some e => exact ⟨made.remove (here ++ [name]), rfl, hundone⟩
    | none =>
      cases hmode : t.modeAt path with
      | error e =>
        refine ⟨made.remove (here ++ [name]), ?_, hundone⟩
        simp [copyMode, hmodeAt, hmode, bind, Except.bind]
      | ok mode =>
        have hmoded := isUpdate_put_beside hfilled hhere (by simp) data mode
        cases outside .rename with
        | some e =>
          refine ⟨made.remove (here ++ [name]), ?_, hundone⟩
          simp [copyMode, hmodeAt, hmode, bind, Except.bind, pure, Except.pure]
        | none =>
          cases hblocked : t.blocked? path with
          | some e =>
            have hmove := moveTo_of_blocked hunused hmoded hblocked
            refine ⟨made.remove (here ++ [name]), ?_, hundone⟩
            simp [copyMode, hmodeAt, hmode, hmove, bind, Except.bind, pure, Except.pure]
          | none =>
            obtain ⟨hslash, place, n, hplace, hn, hleaf⟩ := blocked?_eq_none_iff.mp hblocked
            obtain ⟨u, hmove, hu⟩ :=
              exists_moveTo hhere hfree hunused hmoded hslash hplace hn hleaf
            refine ⟨u, ?_, place, mode, n, hplace, rfl, hn, hleaf, hu⟩
            simp [copyMode, hmodeAt, hmode, hmove, bind, Except.bind, pure, Except.pure]

/-- **Replacing what stands at a path** changes the node in its place, unless something keeps it
from being replaced; then every node is as before. -/
theorem replaceFile_cases (t : Tree) (path : String) (data : Bytes)
    (outside : ReplaceStep → Option IoError) :
    ∃ u, match t.refusal? path outside with
      | some e => t.replaceFile path data outside = (.error e, u) ∧ u.IsSame t
      | none => t.replaceFile path data outside = (.ok (), u) ∧
          ∃ place mode n, t.locate path false = .ok place ∧ t.modeAt path = .ok mode ∧
            t.nodeAt place = some n ∧ n ≠ .folder ∧
            t.IsUpdate u place (some (.file data mode)) := by
  cases hcreate : outside .create with
  | some e =>
    unfold refusal? replaceFile attempt
    rw [hcreate]
    exact ⟨t, rfl, .refl t⟩
  | none =>
    cases hfolder : t.folderOf path with
    | error e =>
      unfold refusal? replaceFile attempt
      rw [hcreate, hfolder, createBeside_of_error hfolder]
      exact ⟨t, rfl, .refl t⟩
    | ok here =>
      by_cases hhere : t.nodeAt here = some .folder
      · exact replaceFile_of_folderOf hcreate hfolder hhere data
      · unfold refusal? replaceFile attempt
        rw [hcreate, hfolder, createBeside_of_ne hfolder hhere]
        simp only [if_neg hhere]
        exact ⟨t, rfl, .refl t⟩

end Cases

/-! ### Replacing a file that is read -/

/-- What keeps a file that is read at a path from being replaced. -/
def hindrance? (t : Tree) (path : String) (outside : ReplaceStep → Option IoError) :
    Option IoError :=
  match outside .create with
  | some e => some e
  | none =>
    match t.folderOf path with
    | .error e => some e
    | .ok here =>
      if t.nodeAt here = some .folder then
        (outside .fill).or ((outside .copyMode).or (outside .rename))
      else some .notDirectory

lemma endsIn_slash_of_read {t : Tree} {path : String} {bs : Bytes} (h : t.read path = .ok bs) :
    endsIn path "/" = false := by
  obtain ⟨l, mode, hlocate, hfile⟩ := read_eq_ok_iff.mp h
  obtain ⟨-, hfollow⟩ := locate_eq_ok_iff.mp hlocate
  obtain ⟨-, hfolder⟩ := follow_parts (nodeAt_origin path t.nodeAt_base) hfollow
  by_contra hslash
  rw [hfolder (by simpa using hslash)] at hfile
  cases hfile

/-- A file is put in the place of another one, or of a link that leads to one, and has its mode. -/
structure Rewrites (t u : Tree) (place : Location) (data : Bytes) (mode : Nat) : Prop
    extends t.IsUpdate u place (some (.file data mode)) where
  old : ∃ l bs, t.nodeAt l = some (.file bs mode) ∧ (place = l ∨ t.LeadsOn place l)

namespace Rewrites

variable {t u : Tree} {place : Location} {data : Bytes} {mode : Nat}
  (h : t.Rewrites u place data mode)

include h

lemma nodeAt_place : u.nodeAt place = some (.file data mode) := by
  rw [h.nodeAt, Function.update_self]

lemma nodeAt_of_ne {x : Location} (hx : x ≠ place) : u.nodeAt x = t.nodeAt x := by
  rw [h.nodeAt, Function.update_of_ne hx]

lemma old_cases : (∃ bs, t.nodeAt place = some (.file bs mode)) ∨
    ∃ target, t.nodeAt place = some (.link target) := by
  obtain ⟨l, bs, hfile, rfl | hlink⟩ := h.old
  · exact .inl ⟨bs, hfile⟩
  · exact .inr hlink.link

lemma nodeAt_file {l : Location} {bs : Bytes} {m : Nat} (hl : t.nodeAt l = some (.file bs m)) :
    ∃ bs', u.nodeAt l = some (.file bs' m) := by
  by_cases hplace : l = place
  · subst hplace
    rcases h.old_cases with ⟨bs', hfile⟩ | ⟨target, hlink⟩
    · rw [hl] at hfile
      cases hfile
      exact ⟨data, h.nodeAt_place⟩
    · rw [hl] at hlink
      cases hlink
  · exact ⟨bs, (h.nodeAt_of_ne hplace).trans hl⟩

lemma follow_false {links : Nat} {here l : Location} {names : List String}
    (hu : u.follow false links here names = .ok l) : t.follow false links here names = .ok l := by
  induction links, here, names using u.follow_induction false with
  | step links here names ih =>
    rw [follow_eq] at hu
    have hsame : u.next false links here names = t.next false links here names →
        t.follow false links here names = .ok l := by
      intro hnext
      rw [hnext] at hu
      rw [follow_eq]
      split at hu
      · exact hu
      · cases hu
      · next heq => exact ih _ _ _ (hnext.trans heq) hu
    cases hlooked : looked here names with
    | none => exact hsame (next_of_looked_eq_none hlooked ..)
    | some x =>
      by_cases hx : x = place
      · subst hx
        rcases names with _ | ⟨name, rest⟩
        · cases hlooked
        -- a file ends the way, and whatever stood there ended it, too
        rw [next_of_looked hlooked, h.nodeAt_place, nextAt] at hu
        rcases rest with _ | ⟨second, rest⟩
        · rw [follow_eq, next_of_looked hlooked]
          rcases h.old_cases with ⟨bs, hfile⟩ | ⟨target, hlink⟩
          · rw [hfile]
            exact hu
          · rw [hlink]
            exact hu
        · cases hu
      · refine hsame (next_congr fun y hy => ?_)
        obtain rfl := Option.some.inj (hlooked.symm.trans hy)
        rw [h.nodeAt_of_ne hx]

/-- A way that leads over the place, and on to a file, ends there. The new file has the mode of the
one that the way led to. -/
lemma follow_true_place {links : Nat} {here l : Location} {names : List String} {bs : Bytes}
    {m : Nat} (hlooked : looked here names = some place)
    (ht : t.follow true links here names = .ok l) (hl : t.nodeAt l = some (.file bs m)) :
    u.follow true links here names = .ok place ∧ m = mode := by
  rcases names with _ | ⟨name, _ | ⟨second, rest⟩⟩
  · cases hlooked
  · constructor
    · rw [follow_eq, next_of_looked hlooked, h.nodeAt_place]
      rfl
    obtain ⟨l₀, bs₀, hfile, rfl | hlink⟩ := h.old
    · rw [follow_eq, next_of_looked hlooked, hfile] at ht
      obtain rfl := Except.ok.inj ht
      cases hl.symm.trans hfile
      rfl
    · obtain ⟨links', hway⟩ := hlink.exists_follow hlooked
      obtain rfl := follow_unique hway ht
      cases hl.symm.trans hfile
      rfl
  · -- a file has nothing below it
    obtain ⟨l₀, bs₀, hfile, rfl | hlink⟩ := h.old
    · rw [follow_eq, next_of_looked hlooked, hfile] at ht
      cases ht
    · cases hfile.symm.trans (hlink.nodeAt_folder hlooked (List.cons_ne_nil _ _) ht)

lemma follow_true {links : Nat} {here l : Location} {names : List String} {bs : Bytes} {m : Nat}
    (ht : t.follow true links here names = .ok l) (hl : t.nodeAt l = some (.file bs m)) :
    ∃ l' bs', u.follow true links here names = .ok l' ∧ u.nodeAt l' = some (.file bs' m) := by
  induction links, here, names using t.follow_induction true with
  | step links here names ih =>
    have hsame : u.next true links here names = t.next true links here names →
        ∃ l' bs', u.follow true links here names = .ok l' ∧ u.nodeAt l' = some (.file bs' m) := by
      intro hnext
      rw [follow_eq] at ht ⊢
      rw [hnext]
      split at ht
      · obtain rfl := Except.ok.inj ht
        obtain ⟨bs', hbs'⟩ := h.nodeAt_file hl
        exact ⟨_, bs', rfl, hbs'⟩
      · cases ht
      · next heq => exact ih _ _ _ heq ht
    cases hlooked : looked here names with
    | none => exact hsame (next_of_looked_eq_none hlooked ..)
    | some x =>
      by_cases hx : x = place
      · obtain ⟨hway, rfl⟩ := h.follow_true_place (hx ▸ hlooked) ht hl
        exact ⟨place, data, hway, h.nodeAt_place⟩
      · refine hsame (next_congr fun y hy => ?_)
        obtain rfl := Option.some.inj (hlooked.symm.trans hy)
        rw [h.nodeAt_of_ne hx]

lemma locate_false {path : String} {l : Location} (hu : u.locate path false = .ok l) :
    t.locate path false = .ok l := by
  obtain ⟨hne, hfollow⟩ := locate_eq_ok_iff.mp hu
  exact locate_eq_ok_iff.mpr ⟨hne, h.follow_false (h.base ▸ hfollow)⟩

lemma modeAt {path : String} {bs : Bytes} {m : Nat} (hread : t.read path = .ok bs)
    (hmode : t.modeAt path = .ok m) : (∃ bs', u.read path = .ok bs') ∧ u.modeAt path = .ok m := by
  obtain ⟨l, m', hlocate, hfile⟩ := read_eq_ok_iff.mp hread
  obtain rfl : m' = m := Except.ok.inj ((modeAt_of_file hlocate hfile).symm.trans hmode)
  obtain ⟨hne, hfollow⟩ := locate_eq_ok_iff.mp hlocate
  obtain ⟨l', bs', hfollow', hfile'⟩ := h.follow_true hfollow hfile
  have hlocate' := locate_eq_ok_iff.mpr ⟨hne, h.base ▸ hfollow'⟩
  exact ⟨⟨bs', read_eq_ok_iff.mpr ⟨l', m', hlocate', hfile'⟩⟩, modeAt_of_file hlocate' hfile'⟩

end Rewrites

section Replace

variable {t : Tree} {path : String} {bs data : Bytes}

/-- A file that is read is replaced if nothing keeps its new file from being made, and no step
fails. -/
lemma refusal?_of_read (outside : ReplaceStep → Option IoError) (hread : t.read path = .ok bs) :
    t.refusal? path outside = t.hindrance? path outside := by
  obtain ⟨l, mode, place, hlocate, hfile, hmode, hplace, hold⟩ := exists_of_read hread
  have hblocked : t.blocked? path = none := by
    refine blocked?_eq_none_iff.mpr ⟨endsIn_slash_of_read hread, place, ?_⟩
    -- a file or a link stands in the place
    rcases hold with rfl | ⟨⟨target, hlink⟩, -⟩
    · exact ⟨_, hplace, hfile, by simp⟩
    · exact ⟨_, hplace, hlink, by simp⟩
  unfold refusal? hindrance?
  rw [hmode, hblocked]
  simp only [Option.or_none]

/-- **Replacing a file that is read at a path** puts the new content in its place, unless something
keeps it from being replaced; then every node is as before. -/
theorem replaceFile_eq (outside : ReplaceStep → Option IoError) (hread : t.read path = .ok bs)
    (data : Bytes) :
    ∃ u, match t.hindrance? path outside with
      | some e => t.replaceFile path data outside = (.error e, u) ∧ u.IsSame t
      | none => t.replaceFile path data outside = (.ok (), u) ∧
          ∃ place mode, t.locate path false = .ok place ∧ t.modeAt path = .ok mode ∧
            t.Rewrites u place data mode := by
  obtain ⟨l, mode, place, -, hfile, hmode, hplace, hold⟩ := exists_of_read hread
  obtain ⟨u, hu⟩ := t.replaceFile_cases path data outside
  rw [refusal?_of_read outside hread] at hu
  refine ⟨u, ?_⟩
  split at hu
  · exact hu
  · obtain ⟨hdone, place', mode', n, hplace', hmode', -, -, hnodes⟩ := hu
    obtain rfl := Except.ok.inj (hplace.symm.trans hplace')
    obtain rfl := Except.ok.inj (hmode.symm.trans hmode')
    exact ⟨hdone, place, mode, hplace, hmode, ⟨hnodes, l, bs, hfile, hold⟩⟩

/-- **What is read at a path after a file was replaced there** is the new content. -/
theorem read_replaceFile {outside : ReplaceStep → Option IoError} {u : Tree} {new : Bytes}
    (hread : t.read path = .ok bs)
    (h : t.replaceFile path data outside = (.ok (), u)) (hnew : u.read path = .ok new) :
    new = data := by
  obtain ⟨u', heq⟩ := replaceFile_eq outside hread data
  split at heq
  · cases h.symm.trans heq.1
  · obtain ⟨hdone, place, mode, hplace, -, hrewrites⟩ := heq
    obtain rfl := (Prod.mk.inj (h.symm.trans hdone)).2
    obtain ⟨l, mode', hlocate, hfile⟩ := read_eq_ok_iff.mp hnew
    obtain ⟨-, hfollow⟩ := locate_eq_ok_iff.mp hlocate
    rw [hrewrites.base] at hfollow
    obtain ⟨x, hx, hl⟩ := exists_place hfollow
    -- the path leads to the place where it led, and there is the file now
    obtain rfl : x = place :=
      Except.ok.inj ((hrewrites.follow_false hx).symm.trans (locate_eq_ok_iff.mp hplace).2)
    rcases hl with rfl | hlink
    · cases hfile.symm.trans hrewrites.nodeAt_place
      rfl
    · obtain ⟨target, htarget⟩ := hlink.link
      cases htarget.symm.trans hrewrites.nodeAt_place

lemma read_of_replaceFile {outside : ReplaceStep → Option IoError} {u : Tree}
    (hread : t.read path = .ok bs) (h : t.replaceFile path data outside = (.ok (), u)) :
    u.read path = .ok data := by
  obtain ⟨u', heq⟩ := replaceFile_eq outside hread data
  split at heq
  · cases h.symm.trans heq.1
  · obtain ⟨hdone, place, mode, -, hmode, hrewrites⟩ := heq
    obtain rfl := (Prod.mk.inj (h.symm.trans hdone)).2
    obtain ⟨⟨new, hnew⟩, -⟩ := hrewrites.modeAt hread hmode
    rw [hnew, read_replaceFile hread h hnew]

end Replace

end Letterhead.Tree
