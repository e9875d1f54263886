import Letterhead.Proofs.Except
import Letterhead.Proofs.Tree.Follow

/-!
Where paths lead.

A path in two parts is followed one part after the other. How many links may be followed decides
whether a path leads somewhere, but not where. And a path whose last link is not followed leads to
the place that is replaced when a file is written: what the path leads to in the end, or a link from
which the way goes on to it.
-/

namespace Letterhead.Tree

variable {t u : Tree} {last : Bool} {links links' : Nat} {here l : Location}
  {names more : List String}

/-! ### Ways in two parts -/

lemma nodeAt_dropLast (h : t.nodeAt here = some .folder) :
    t.nodeAt here.dropLast = some .folder := by
  rcases List.eq_nil_or_concat' here with rfl | ⟨above, name, rfl⟩
  · exact h
  · rw [List.dropLast_concat]
    exact nodeAt_folder_of_append (by rw [h]; simp)

lemma nodeAt_origin (path : String) (h : t.nodeAt here = some .folder) :
    t.nodeAt (origin path here) = some .folder := by
  unfold origin
  split
  · exact t.nodeAt_nil
  · exact h

/-- The first step of a way in two parts is that of the first part, unless this one ends there. -/
lemma next_append (last : Bool) (links : Nat) (hhere : t.nodeAt here = some .folder)
    (hmore : more ≠ []) (name : String) (rest : List String) :
    (∃ e, t.next true links here (name :: rest) = .failed e ∧
        t.next last links here (name :: rest ++ more) = .failed e) ∨
      (∃ links' here' names', t.next true links here (name :: rest) = .onward links' here' names' ∧
        t.next last links here (name :: rest ++ more) = .onward links' here' (names' ++ more) ∧
        t.nodeAt here' = some .folder) ∨
      ∃ x, t.next true links here (name :: rest) = .arrived x ∧ t.nodeAt x ≠ some .folder ∧
        t.next last links here (name :: rest ++ more) = .failed .notDirectory := by
  have hempty : (rest ++ more).isEmpty = false := by simp [hmore]
  by_cases hpoint : name = "."
  · exact .inr (.inl ⟨links, here, rest, by simp [next, hpoint], by simp [next, hpoint], hhere⟩)
  by_cases hpoints : name = ".."
  · exact .inr (.inl ⟨links, here.dropLast, rest, by simp [next, hpoints], by simp [next, hpoints],
      nodeAt_dropLast hhere⟩)
  by_cases hlong : nameLimit < name.utf8ByteSize
  · exact .inl ⟨.nameTooLong, by simp [next, hpoint, hpoints, hlong],
      by simp [next, hpoint, hpoints, hlong]⟩
  -- a name that is looked at, with and without the second part behind it
  have hlooked : ∀ rest, looked here (name :: rest) = some (here ++ [name]) := fun rest =>
    looked_cons.mpr ⟨hpoint, hpoints, hlong, rfl⟩
  rw [List.cons_append, next_of_looked (hlooked rest), next_of_looked (hlooked (rest ++ more))]
  rcases hnode : t.nodeAt (here ++ [name]) with _ | ⟨data, mode⟩ | target | _
  · exact .inl ⟨.notFound, rfl, rfl⟩
  · dsimp only [nextAt]
    rw [hempty]
    split
    · exact .inr (.inr ⟨_, rfl, by simp [hnode], rfl⟩)
    · exact .inl ⟨_, rfl, rfl⟩
  · simp only [nextAt, hempty, Bool.not_true, Bool.and_false, Bool.false_and, Bool.false_eq_true,
      if_false]
    cases links with
    | zero => exact .inl ⟨_, rfl, rfl⟩
    | succ links =>
      exact .inr (.inl
        ⟨_, _, _, rfl, by rw [List.append_assoc], nodeAt_origin target hhere⟩)
  · exact .inr (.inl ⟨_, _, _, rfl, rfl, hnode⟩)

/-- **A way in two parts** leads nowhere if the first part does, or if that part leads to no folder;
else it leads to where the second part leads from there. -/
lemma follow_append (last : Bool) (links : Nat) (names : List String)
    (hhere : t.nodeAt here = some .folder) (hmore : more ≠ []) :
    (∃ e, t.follow true links here names = .error e ∧
        t.follow last links here (names ++ more) = .error e) ∨
      ∃ m links', t.follow true links here names = .ok m ∧
        (t.nodeAt m = some .folder ∧
            t.follow last links here (names ++ more) = t.follow last links' m more ∨
          t.nodeAt m ≠ some .folder ∧
            t.follow last links here (names ++ more) = .error .notDirectory) := by
  induction links, here, names using t.follow_induction true with
  | step links here names ih =>
    rcases names with _ | ⟨name, rest⟩
    · exact .inr ⟨here, links, follow_eq .., .inl ⟨hhere, rfl⟩⟩
    rw [follow_eq t true, follow_eq t last links here (name :: rest ++ more)]
    rcases next_append last links hhere hmore name rest with
      ⟨e, h, h'⟩ | ⟨links', here', names', h, h', hfolder⟩ | ⟨x, h, hx, h'⟩
    · rw [h, h']
      exact .inl ⟨e, rfl, rfl⟩
    · rw [h, h']
      exact ih links' here' names' h hfolder
    · rw [h, h']
      exact .inr ⟨x, links, rfl, .inr ⟨hx, rfl⟩⟩

/-- A slash at the end of a path asks for a folder, and leads nowhere else. -/
lemma follow_parts {path : String} (hhere : t.nodeAt here = some .folder)
    (h : t.follow true links here (steps path) = .ok l) :
    t.follow true links here (Path.parts path) = .ok l ∧
      (endsIn path "/" = true → t.nodeAt l = some .folder) := by
  unfold steps at h
  split at h
  · rcases follow_append true links (Path.parts path) hhere (List.cons_ne_nil "." []) with
      ⟨e, -, herror⟩ | ⟨m, links', hm, ⟨hfolder, hlast⟩ | ⟨-, herror⟩⟩
    · cases herror.symm.trans h
    · rw [hlast, follow, if_pos rfl, follow] at h
      obtain rfl := Except.ok.inj h
      exact ⟨hm, fun _ => hfolder⟩
    · cases herror.symm.trans h
  · next hslash =>
    rw [List.append_nil] at h
    exact ⟨h, fun hends => absurd hends hslash⟩

lemma eq_of_follow_entries (hnames : ∀ name ∈ names, name ≠ "." ∧ name ≠ "..")
    (hentry : t.nodeAt (here ++ names) ≠ none) (h : t.follow false links here names = .ok l) :
    l = here ++ names := by
  induction names generalizing here with
  | nil =>
    rw [follow] at h
    rw [List.append_nil]
    exact (Except.ok.inj h).symm
  | cons name rest ih =>
    have hrest : here ++ name :: rest = here ++ [name] ++ rest := by simp
    rw [hrest] at hentry ⊢
    obtain ⟨⟨hpoint, hpoints⟩, hnames⟩ := List.forall_mem_cons.mp hnames
    by_cases hlong : nameLimit < name.utf8ByteSize
    · rw [follow, if_neg hpoint, if_neg hpoints, if_pos hlong] at h
      cases h
    have hlooked : looked here (name :: rest) = some (here ++ [name]) :=
      looked_cons.mpr ⟨hpoint, hpoints, hlong, rfl⟩
    rw [follow_eq, next_of_looked hlooked] at h
    cases rest with
    | nil =>
      rw [List.append_nil]
      rcases hnode : t.nodeAt (here ++ [name]) with _ | _ | _ | _ <;> rw [hnode] at h
      · cases h
      · exact (Except.ok.inj h).symm
      · exact (Except.ok.inj h).symm
      · dsimp only [nextAt] at h
        rw [follow] at h
        exact (Except.ok.inj h).symm
    | cons second rest =>
      -- something lies below the entry, so it is a folder
      have hfolder : t.nodeAt (here ++ [name]) = some .folder := nodeAt_folder_of_append hentry
      rw [hfolder] at h
      exact ih hnames hentry h

/-! ### How many links may be followed -/

lemma nextAt_mono {x : Location} {rest : List String} {n : Option Node} (hle : links ≤ links') :
    (∃ e, nextAt last links here x rest n = .failed e) ∨
      (∃ l, nextAt last links here x rest n = .arrived l ∧
        nextAt last links' here x rest n = .arrived l) ∨
      ∃ k k' here' names, k ≤ k' ∧ nextAt last links here x rest n = .onward k here' names ∧
        nextAt last links' here x rest n = .onward k' here' names := by
  rcases n with _ | _ | target | _
  · exact .inl ⟨_, rfl⟩
  · dsimp only [nextAt]
    split
    · exact .inr (.inl ⟨_, rfl, rfl⟩)
    · exact .inl ⟨_, rfl⟩
  · dsimp only [nextAt]
    split
    · exact .inr (.inl ⟨_, rfl, rfl⟩)
    cases links with
    | zero => exact .inl ⟨_, rfl⟩
    | succ links =>
      obtain ⟨links', rfl⟩ : ∃ k, links' = k + 1 := ⟨links' - 1, by omega⟩
      exact .inr (.inr ⟨_, _, _, _, by omega, rfl, rfl⟩)
  · exact .inr (.inr ⟨_, _, _, _, hle, rfl, rfl⟩)

lemma next_mono (last : Bool) (here : Location) (names : List String) (hle : links ≤ links') :
    (∃ e, t.next last links here names = .failed e) ∨
      (∃ l, t.next last links here names = .arrived l ∧
        t.next last links' here names = .arrived l) ∨
      ∃ k k' here' names', k ≤ k' ∧ t.next last links here names = .onward k here' names' ∧
        t.next last links' here names = .onward k' here' names' := by
  rcases names with _ | ⟨name, rest⟩
  · exact .inr (.inl ⟨here, rfl, rfl⟩)
  dsimp only [next]
  split
  · exact .inr (.inr ⟨_, _, _, _, hle, rfl, rfl⟩)
  split
  · exact .inr (.inr ⟨_, _, _, _, hle, rfl, rfl⟩)
  split
  · exact .inl ⟨_, rfl⟩
  · exact nextAt_mono hle

lemma follow_mono (hle : links ≤ links') (h : t.follow last links here names = .ok l) :
    t.follow last links' here names = .ok l := by
  induction links, here, names using t.follow_induction last generalizing links' with
  | step links here names ih =>
    rw [follow_eq] at h
    rw [follow_eq]
    rcases next_mono last here names hle with
      ⟨e, hnext⟩ | ⟨m, hnext, hnext'⟩ | ⟨k, k', here', names', hk, hnext, hnext'⟩
    · rw [hnext] at h
      cases h
    · rw [hnext] at h
      rw [hnext']
      exact h
    · rw [hnext] at h
      rw [hnext']
      exact ih k here' names' hnext hk h

/-- **A path leads to one place**, however many links may be followed. -/
lemma follow_unique {m : Location} (h : t.follow last links here names = .ok l)
    (h' : t.follow last links' here names = .ok m) : l = m := by
  rcases Nat.le_total links links' with hle | hle
  · exact Except.ok.inj ((follow_mono hle h).symm.trans h')
  · exact Except.ok.inj (h.symm.trans (follow_mono hle h'))

/-! ### Links at the end -/

/-- The way goes on from a link. -/
structure LeadsOn (t : Tree) (x l : Location) : Prop where
  link : ∃ target, t.nodeAt x = some (.link target)
  way : ∃ links here name, looked here [name] = some x ∧ t.follow true links here [name] = .ok l

/-- **The place of what a path leads to** is that itself, or a link from which the way goes on. -/
lemma exists_place (h : t.follow true links here names = .ok l) :
    ∃ x, t.follow false links here names = .ok x ∧ (x = l ∨ t.LeadsOn x l) := by
  induction links, here, names using t.follow_induction true with
  | step links here names ih =>
    rcases t.next_false_cases links here names with
      hsame | ⟨name, x, target, rfl, hlooked, hlink, harrived⟩
    · rw [follow_eq] at h
      rw [follow_eq, hsame]
      split at h
      · exact ⟨_, rfl, .inl (Except.ok.inj h)⟩
      · cases h
      · next hnext => exact ih _ _ _ hnext h
    · refine ⟨x, ?_, .inr ⟨⟨target, hlink⟩, links, here, name, hlooked, h⟩⟩
      rw [follow_eq, harrived]

lemma LeadsOn.exists_follow {x : Location} {name : String} {rest : List String}
    (hx : t.LeadsOn x l) (hlooked : looked here (name :: rest) = some x) :
    ∃ links, t.follow true links here [name] = .ok l := by
  obtain ⟨-, links', here', name', hlooked', hway⟩ := hx
  obtain ⟨-, -, -, hat⟩ := looked_cons.mp hlooked
  obtain ⟨-, -, -, hat'⟩ := looked_cons.mp hlooked'
  obtain ⟨rfl, hname⟩ := List.append_inj' (hat'.symm.trans hat) rfl
  obtain rfl := List.singleton_inj.mp hname
  exact ⟨links', hway⟩

/-- A link on the way to something leads to a folder, unless it ends the way. -/
lemma LeadsOn.nodeAt_folder {x : Location} {name : String} {rest : List String}
    (hx : t.LeadsOn x l) (hlooked : looked here (name :: rest) = some x) (hrest : rest ≠ []) {m}
    (h : t.follow last links here (name :: rest) = .ok m) : t.nodeAt l = some .folder := by
  obtain ⟨target, hlink⟩ := hx.link
  obtain ⟨links', hway⟩ := hx.exists_follow hlooked
  have hhere : t.nodeAt here = some .folder := by
    have hbelow : t.nodeAt (here ++ [name]) ≠ none := by
      rw [← (looked_cons.mp hlooked).2.2.2, hlink]
      simp
    exact nodeAt_folder_of_append hbelow
  rcases follow_append last links [name] hhere hrest with
    ⟨e, -, herror⟩ | ⟨m', links₂, hfirst, ⟨hfolder, -⟩ | ⟨-, herror⟩⟩
  · cases herror.symm.trans h
  · rwa [follow_unique hway hfirst]
  · cases herror.symm.trans h

/-! ### What is read at a path -/

/-- The mode that is read off a node. -/
def Node.mode : Node → Nat
  | .file _ mode => mode
  | _ => folderMode

section Read

variable {path : String} {bs : Bytes} {mode : Nat}

lemma locate_eq_ok_iff :
    t.locate path last = .ok l ↔
      path ≠ "" ∧ t.follow last linkLimit (origin path t.base) (steps path) = .ok l := by
  unfold locate
  split
  · next h => simp [h]
  · next h => simp [h]

lemma find?_eq_ok_iff {e : Entry} :
    t.find? path = .ok e ↔ ∃ l, t.locate path = .ok l ∧ t.at? l = some e := by
  unfold find?
  cases t.locate path with
  | error e => simp [bind, Except.bind]
  | ok l =>
    simp only [bind, Except.bind, pure, Except.pure]
    cases hat : t.at? l <;> simp [hat, throw, throwThe, MonadExceptOf.throw]

lemma read_eq_ok_iff :
    t.read path = .ok bs ↔
      ∃ l mode, t.locate path = .ok l ∧ t.nodeAt l = some (.file bs mode) := by
  have hread : t.read path = .ok bs ↔ ∃ mode, t.find? path = .ok (.file bs mode) := by
    unfold read
    rcases t.find? path with e | e | e | e <;>
      simp [bind, Except.bind, pure, Except.pure, throw, throwThe, MonadExceptOf.throw]
  simp only [hread, find?_eq_ok_iff, nodeAt_eq_file_iff]
  exact exists_comm

lemma modeAt_of_file (hlocate : t.locate path = .ok l) (h : t.nodeAt l = some (.file bs mode)) :
    t.modeAt path = .ok mode := by
  rw [modeAt, find?_eq_ok_iff.mpr ⟨l, hlocate, nodeAt_eq_file_iff.mp h⟩]
  rfl

lemma exists_of_read (h : t.read path = .ok bs) :
    ∃ l mode place, t.locate path = .ok l ∧ t.nodeAt l = some (.file bs mode) ∧
      t.modeAt path = .ok mode ∧ t.locate path false = .ok place ∧
      (place = l ∨ t.LeadsOn place l) := by
  obtain ⟨l, mode, hlocate, hfile⟩ := read_eq_ok_iff.mp h
  obtain ⟨hne, hfollow⟩ := locate_eq_ok_iff.mp hlocate
  obtain ⟨place, hplace, hold⟩ := exists_place hfollow
  exact ⟨l, mode, place, hlocate, hfile, modeAt_of_file hlocate hfile,
    locate_eq_ok_iff.mpr ⟨hne, hplace⟩, hold⟩

variable (hlocate : u.locate path = t.locate path)
  (hnode : ∀ l, t.locate path = .ok l → u.nodeAt l = t.nodeAt l)

include hlocate hnode

/-- What a path leads to has the same node, so it differs at most in what lies below it. -/
lemma find?_congr :
    (u.find? path).map Entry.node = (t.find? path).map Entry.node := by
  unfold find?
  rw [hlocate]
  cases hl : t.locate path with
  | error e => rfl
  | ok l =>
    have h := hnode l hl
    rw [nodeAt, nodeAt] at h
    rcases hu : u.at? l with _ | d <;> rcases ht : t.at? l with _ | e <;>
      simp_all [bind, Except.bind, pure, Except.pure, Except.map, throw, throwThe,
        MonadExceptOf.throw]

lemma read_congr : u.read path = t.read path := by
  have hread : ∀ t : Tree, t.read path = (t.find? path).map Entry.node >>= fun
      | .file data _ => .ok data
      | .folder => .error .isDirectory
      | .link _ => .error .notFound := by
    intro t
    unfold read
    rcases t.find? path with _ | _ | _ | _ <;> rfl
  rw [hread, hread, find?_congr hlocate hnode]

lemma modeAt_congr : u.modeAt path = t.modeAt path := by
  have hmode : ∀ t : Tree, t.modeAt path = ((t.find? path).map Entry.node).map Node.mode := by
    intro t
    unfold modeAt
    rcases t.find? path with _ | _ | _ | _ <;> rfl
  rw [hmode, hmode, find?_congr hlocate hnode]

end Read

end Letterhead.Tree
