import Letterhead.Proofs.Tree.Replace

/-!
All or nothing.

Whichever step fails when what stands at a path is replaced, every node is as it was then, and no
file is left beside it. If none fails, there is a file in the place of the path, with the new
content and the mode of what the path led to, and no other node has changed: what a link in the
place led to is as it was, too. And whether a step fails in the tree, the tree and the path alone
decide.
-/

namespace Letterhead.Tree

/-! ### The path to the new file -/

section Way

variable {t : Tree} {last : Bool} {links : Nat} {here place : Location} {names : List String}

lemma exists_leadsOn_folder {x m : Location} {name : String} {rest : List String}
    (hlooked : looked here (name :: rest) = some x) (hrest : rest ≠ [])
    (hleaf : t.nodeAt x ≠ some .folder) (h : t.follow last links here (name :: rest) = .ok m) :
    ∃ l, t.LeadsOn x l ∧ t.nodeAt l = some .folder := by
  have hnext := h
  rw [follow_eq, next_of_looked hlooked] at hnext
  rcases hnode : t.nodeAt x with _ | ⟨bs, mode⟩ | target | _
  · rw [hnode] at hnext
    cases hnext
  · rw [hnode, nextAt, if_neg (by simpa using hrest)] at hnext
    cases hnext
  · have hhere : t.nodeAt here = some .folder := by
      obtain ⟨-, -, -, rfl⟩ := looked_cons.mp hlooked
      exact nodeAt_folder_of_append (by rw [hnode]; simp)
    rcases follow_append last links [name] hhere hrest with
      ⟨e, -, herror⟩ | ⟨l, links', hway, ⟨hfolder, -⟩ | ⟨-, herror⟩⟩
    · cases herror.symm.trans h
    · exact ⟨l, ⟨⟨target, hnode⟩, links, here, name, hlooked, hway⟩, hfolder⟩
    · cases herror.symm.trans h
  · exact absurd hnode hleaf

lemma next_eq_next_false (last : Bool) (hplace : looked here names ≠ some place)
    (h : t.follow false links here names = .ok place) :
    t.next last links here names = t.next false links here names := by
  rcases t.next_false_cases links here names with hsame | ⟨name, x, -, rfl, hlooked, -, harrived⟩
  · cases last with
    | false => rfl
    | true => exact hsame.symm
  · rw [follow_eq, harrived] at h
    cases h
    exact absurd hlooked hplace

/-- The way to the place of a new file ends there, unless it goes through this place before: then a
link to a folder stood there. -/
lemma follow_put (last : Bool) {u : Tree} {data : Bytes} {mode : Nat}
    (hu : t.IsUpdate u place (some (.file data mode)))
    (hleaf : t.nodeAt place ≠ some .folder) (h : t.follow false links here names = .ok place) :
    u.follow last links here names = .ok place ∨
      (∃ l, t.LeadsOn place l ∧ t.nodeAt l = some .folder) ∧
        u.follow last links here names = .error .notDirectory := by
  induction links, here, names using t.follow_induction false with
  | step links here names ih =>
    by_cases hlooked : looked here names = some place
    · rcases names with _ | ⟨name, rest⟩
      · cases hlooked
      have hnew : u.nodeAt place = some (.file data mode) := by rw [hu.nodeAt, Function.update_self]
      rw [follow_eq, next_of_looked hlooked, hnew]
      rcases rest with _ | ⟨second, rest⟩
      · exact .inl rfl
      · exact .inr ⟨exists_leadsOn_folder hlooked (List.cons_ne_nil _ _) hleaf h, rfl⟩
    -- any other step is the one before
    have hnext : u.next last links here names = t.next false links here names := by
      rw [← next_eq_next_false last hlooked h]
      refine next_congr fun x hx => congrArg _ ?_
      rw [hu.nodeAt, Function.update_of_ne]
      rintro rfl
      exact hlooked hx
    rw [follow_eq] at h
    rw [follow_eq, hnext]
    split at h
    · exact .inl h
    · cases h
    · next heq => exact ih _ _ _ heq h

end Way

/-! ### What keeps a path from being replaced -/

lemma refusal?_eq_none_iff {t : Tree} {path : String} {outside : ReplaceStep → Option IoError} :
    t.refusal? path outside = none ↔
      (∀ step, outside step = none) ∧
        (∃ here, t.folderOf path = .ok here ∧ t.nodeAt here = some .folder) ∧
        (∃ mode, t.modeAt path = .ok mode) ∧ t.blocked? path = none := by
  have hsteps : (∀ step, outside step = none) ↔ outside .create = none ∧ outside .fill = none ∧
      outside .copyMode = none ∧ outside .rename = none :=
    ⟨fun h => ⟨h _, h _, h _, h _⟩, fun ⟨h₁, h₂, h₃, h₄⟩ step => by cases step <;> assumption⟩
  rw [hsteps]
  unfold refusal?
  cases outside .create with
  | some e => simp
  | none =>
    cases t.folderOf path with
    | error e => simp
    | ok here =>
      by_cases hhere : t.nodeAt here = some .folder
      · cases t.modeAt path with
        | error e => simp [hhere]
        | ok mode => simp [hhere, Option.or_eq_none_iff, and_assoc]
      · simp [hhere]

/-- **Replacing what stands at a path is all or nothing.** If it fails, every node is as before. If
it succeeds, there is a file in the place of the path, with the new content and the mode of what the
path led to, and every other node is as before. The path leads to this file, unless it goes through
its own place, from a link to a folder: then it leads nowhere. And it succeeds just if nothing
outside the tree keeps a step from happening, the folder of the path is there, the path leads
somewhere, and its place is taken, but by no folder. -/
theorem replaceFile_all_or_nothing (t : Tree) (path : String) (data : Bytes)
    (outside : ReplaceStep → Option IoError) :
    (∀ e u, t.replaceFile path data outside = (.error e, u) → u.IsSame t) ∧
      (∀ u, t.replaceFile path data outside = (.ok (), u) →
        ∃ place mode n, t.locate path false = .ok place ∧ t.modeAt path = .ok mode ∧
          t.nodeAt place = some n ∧ n ≠ .folder ∧
          t.IsUpdate u place (some (.file data mode)) ∧
          (u.read path = .ok data ∧ u.modeAt path = .ok mode ∨
            (∃ l, t.LeadsOn place l ∧ t.nodeAt l = some .folder) ∧
              u.locate path = .error .notDirectory)) ∧
      ((∃ u, t.replaceFile path data outside = (.ok (), u)) ↔
        (∀ step, outside step = none) ∧
          (∃ here, t.folderOf path = .ok here ∧ t.nodeAt here = some .folder) ∧
          (∃ mode, t.modeAt path = .ok mode) ∧ endsIn path "/" = false ∧
          ∃ place n, t.locate path false = .ok place ∧ t.nodeAt place = some n ∧ n ≠ .folder) := by
  obtain ⟨u, hcases⟩ := t.replaceFile_cases path data outside
  rw [← blocked?_eq_none_iff, ← refusal?_eq_none_iff]
  split at hcases
  · next e hrefusal =>
    obtain ⟨hfail, hsame⟩ := hcases
    rw [hfail, hrefusal]
    refine ⟨fun _ _ h => ?_, fun _ h => ?_, by simp⟩
    · cases h
      exact hsame
    · cases h
  · next hrefusal =>
    obtain ⟨hdone, place, mode, n, hplace, hmode, hn, hleaf, hu⟩ := hcases
    rw [hdone, hrefusal]
    refine ⟨fun _ _ h => ?_, fun _ h => ?_, by simp⟩
    · cases h
    cases h
    refine ⟨place, mode, n, hplace, hmode, hn, hleaf, hu, ?_⟩
    obtain ⟨hne, hfollow⟩ := locate_eq_ok_iff.mp hplace
    have hnew : u.nodeAt place = some (.file data mode) := by rw [hu.nodeAt, Function.update_self]
    have hleaf : t.nodeAt place ≠ some .folder := by simpa [hn] using hleaf
    rcases follow_put true hu hleaf hfollow with hway | ⟨hlink, hway⟩
    · have hlocate : u.locate path = .ok place := locate_eq_ok_iff.mpr ⟨hne, hu.base ▸ hway⟩
      exact .inl ⟨read_eq_ok_iff.mpr ⟨place, mode, hlocate, hnew⟩, modeAt_of_file hlocate hnew⟩
    · refine .inr ⟨hlink, ?_⟩
      simp [locate, hne, hu.base, hway]

-- A link is replaced by a file, with the mode of the file that the link led to, and that one stays.
example :
    (ofFolder [("a", .file [1] 0o640), ("l", .link "/a")]).replaceFile "l" [2] (fun _ => none) =
      (.ok (), ofFolder [("a", .file [1] 0o640), ("l", .file [2] 0o640)]) := by
  cbv

end Letterhead.Tree
