import Letterhead.Tree.Locate
import Letterhead.Proofs.Tree.Node

/-!
Following a path, one name at a time.

At each step one entry is looked at, and the face of its node decides how to go on: what a file
holds does not matter. So two trees that show the same faces where they are looked at lead a path to
the same place, and what is proved of one step carries over to the whole way by one induction.
-/

namespace Letterhead.Tree

/-! ### One step -/

/-- How a path goes on. -/
inductive Next where
  | arrived (l : Location)
  | failed (e : IoError)
  | onward (links : Nat) (here : Location) (names : List String)

/-- The location that is looked at next. -/
def looked (here : Location) : List String → Option Location
  | [] => none
  | name :: _ =>
    if name = "." ∨ name = ".." ∨ nameLimit < name.utf8ByteSize then none else some (here ++ [name])

/-- The step that the node at the next location asks for. -/
def nextAt (last : Bool) (links : Nat) (here x : Location) (rest : List String) :
    Option Node → Next
  | none => .failed .notFound
  | some .folder => .onward links x rest
  | some (.file _ _) => if rest.isEmpty then .arrived x else .failed .notDirectory
  | some (.link target) =>
    if rest.isEmpty && !last then .arrived x
    else
      match links with
      | 0 => .failed .tooManyLinks
      | links + 1 => .onward links (origin target here) (steps target ++ rest)

/-- The next step of following a path. -/
def next (t : Tree) (last : Bool) (links : Nat) (here : Location) : List String → Next
  | [] => .arrived here
  | name :: rest =>
    if name = "." then .onward links here rest
    else if name = ".." then .onward links here.dropLast rest
    else if nameLimit < name.utf8ByteSize then .failed .nameTooLong
    else nextAt last links here (here ++ [name]) rest (t.nodeAt (here ++ [name]))

lemma follow_eq (t : Tree) (last : Bool) (links : Nat) (here : Location) (names : List String) :
    t.follow last links here names =
      match t.next last links here names with
      | .arrived l => .ok l
      | .failed e => .error e
      | .onward links here names => t.follow last links here names := by
  rcases names with _ | ⟨name, rest⟩
  · rw [follow]
    rfl
  rw [follow, next]
  split
  · rfl
  split
  · rfl
  split
  · rfl
  rw [nodeAt]
  rcases t.at? (here ++ [name]) with _ | _ | _ | _
  · rfl
  · simp only [Option.map_some, Entry.node, nextAt]
    split <;> rfl
  · simp only [Option.map_some, Entry.node, nextAt]
    split
    · rfl
    · cases links <;> rfl
  · rfl

lemma nextAt_eq_onward {last : Bool} {links links' : Nat} {here here' x : Location}
    {rest names' : List String} {n : Option Node}
    (h : nextAt last links here x rest n = .onward links' here' names') :
    n = some .folder ∧ links' = links ∧ here' = x ∧ names' = rest ∨
      ∃ target, n = some (.link target) ∧ links = links' + 1 ∧ here' = origin target here ∧
        names' = steps target ++ rest := by
  rcases n with _ | _ | target | _
  · cases h
  · unfold nextAt at h
    split_ifs at h
  · unfold nextAt at h
    dsimp only at h
    split at h
    · cases h
    cases links with
    | zero => cases h
    | succ links =>
      cases h
      exact .inr ⟨target, rfl, rfl, rfl, rfl⟩
  · cases h
    exact .inl ⟨rfl, rfl, rfl, rfl⟩

lemma next_onward_lt {t : Tree} {last : Bool} {links links' : Nat} {here here' : Location}
    {names names' : List String} (h : t.next last links here names = .onward links' here' names') :
    links' < links ∨ links' = links ∧ names'.length < names.length := by
  rcases names with _ | ⟨name, rest⟩
  · cases h
  unfold next at h
  dsimp only at h
  split_ifs at h
  · cases h
    simp
  · cases h
    simp
  · rcases nextAt_eq_onward h with ⟨-, rfl, -, rfl⟩ | ⟨target, -, rfl, -⟩
    · simp
    · simp

lemma follow_induction (t : Tree) (last : Bool)
    {motive : Nat → Location → List String → Prop}
    (step : ∀ links here names,
      (∀ links' here' names', t.next last links here names = .onward links' here' names' →
        motive links' here' names') → motive links here names)
    (links : Nat) (here : Location) (names : List String) : motive links here names := by
  induction links using Nat.strong_induction_on generalizing here names with
  | _ links ihLinks =>
    induction hlen : names.length using Nat.strong_induction_on generalizing here names with
    | _ len ihLen =>
      refine step links here names fun links' here' names' h => ?_
      rcases next_onward_lt h with hlt | ⟨rfl, hlt⟩
      · exact ihLinks links' hlt here' names'
      · exact ihLen _ (hlen ▸ hlt) here' names' rfl

/-! ### What a way depends on -/

section Congr

variable {t u : Tree} {last : Bool} {links : Nat} {here : Location} {names : List String}

lemma looked_cons {name : String} {rest : List String} {x : Location} :
    looked here (name :: rest) = some x ↔
      name ≠ "." ∧ name ≠ ".." ∧ ¬ nameLimit < name.utf8ByteSize ∧ x = here ++ [name] := by
  simp only [looked]
  split_ifs with h
  · simp only [false_iff]
    rintro ⟨hpoint, hpoints, hlong, -⟩
    exact absurd h (by simp [hpoint, hpoints, hlong])
  · push Not at h
    simp [h, eq_comm]

lemma next_of_looked {name : String} {rest : List String} {x : Location}
    (h : looked here (name :: rest) = some x) :
    t.next last links here (name :: rest) = nextAt last links here x rest (t.nodeAt x) := by
  obtain ⟨hpoint, hpoints, hlong, rfl⟩ := looked_cons.mp h
  rw [next, if_neg hpoint, if_neg hpoints, if_neg hlong]

lemma next_of_looked_eq_none (h : looked here names = none) (t u : Tree) (last last' : Bool) :
    u.next last' links here names = t.next last links here names := by
  rcases names with _ | ⟨name, rest⟩
  · rfl
  unfold looked at h
  simp only [ite_eq_left_iff, reduceCtorEq, imp_false, not_not] at h
  unfold next
  dsimp only
  split_ifs with hpoint hpoints hlong
  · rfl
  · rfl
  · rfl
  · rcases h with h | h | h <;> contradiction

lemma nextAt_congr {x : Location} {rest : List String} {n m : Option Node}
    (h : n.map Node.face = m.map Node.face) :
    nextAt last links here x rest n = nextAt last links here x rest m := by
  have hface : ∀ n : Option Node,
      nextAt last links here x rest (n.map Node.face) = nextAt last links here x rest n := by
    rintro (_ | _ | _ | _) <;> rfl
  rw [← hface n, h, hface]

lemma next_congr
    (h : ∀ x ∈ looked here names, (u.nodeAt x).map Node.face = (t.nodeAt x).map Node.face) :
    u.next last links here names = t.next last links here names := by
  rcases names with _ | ⟨name, rest⟩
  · rfl
  cases hlooked : looked here (name :: rest) with
  | none => exact next_of_looked_eq_none hlooked t u last last
  | some x =>
    rw [next_of_looked hlooked, next_of_looked hlooked, nextAt_congr (h x hlooked)]

/-- The locations that are looked at on the way, and the one to which it leads. -/
def passed (t : Tree) (last : Bool) (links : Nat) (here : Location) (names : List String) :
    List Location :=
  (looked here names).toList ++
    match _h : t.next last links here names with
    | .arrived l => [l]
    | .failed _ => []
    | .onward links' here' names' => passed t last links' here' names'
termination_by (links, names.length)
decreasing_by
  rcases next_onward_lt _h with hlt | ⟨rfl, hlt⟩
  · exact Prod.Lex.left _ _ hlt
  · exact Prod.Lex.right _ hlt

lemma mem_passed_of_looked {x : Location} (h : x ∈ looked here names) :
    x ∈ t.passed last links here names := by
  rw [passed]
  exact List.mem_append_left _ (Option.mem_toList.mpr h)

lemma mem_passed_of_onward {links' : Nat} {here' x : Location} {names' : List String}
    (hnext : t.next last links here names = .onward links' here' names')
    (h : x ∈ t.passed last links' here' names') : x ∈ t.passed last links here names := by
  rw [passed]
  refine List.mem_append_right _ ?_
  split
  · next heq => cases hnext.symm.trans heq
  · next heq => cases hnext.symm.trans heq
  · next heq =>
    cases hnext.symm.trans heq
    exact h

lemma mem_passed_of_arrived {l : Location}
    (hnext : t.next last links here names = .arrived l) : l ∈ t.passed last links here names := by
  rw [passed]
  refine List.mem_append_right _ ?_
  split
  · next heq =>
    cases hnext.symm.trans heq
    exact List.mem_singleton_self _
  · next heq => cases hnext.symm.trans heq
  · next heq => cases hnext.symm.trans heq

lemma mem_passed_of_follow {l : Location} (h : t.follow last links here names = .ok l) :
    l ∈ t.passed last links here names := by
  induction links, here, names using t.follow_induction last with
  | step links here names ih =>
    rw [follow_eq] at h
    split at h
    · next heq =>
      obtain rfl := Except.ok.inj h
      exact mem_passed_of_arrived heq
    · cases h
    · next heq => exact mem_passed_of_onward heq (ih _ _ _ heq h)

/-- **Following a path depends on the faces of the nodes that it passes.** -/
lemma follow_congr
    (h : ∀ x ∈ t.passed last links here names,
      (u.nodeAt x).map Node.face = (t.nodeAt x).map Node.face) :
    u.follow last links here names = t.follow last links here names := by
  induction links, here, names using t.follow_induction last with
  | step links here names ih =>
    rw [follow_eq u, follow_eq t, next_congr fun x hx => h x (mem_passed_of_looked hx)]
    split
    · rfl
    · rfl
    · next heq => exact ih _ _ _ heq fun x hx => h x (mem_passed_of_onward heq hx)

end Congr

/-! ### Links at the end -/

section Last

variable {t : Tree} {links : Nat} {here : Location} {names : List String}

lemma next_false_cases (t : Tree) (links : Nat) (here : Location) (names : List String) :
    t.next false links here names = t.next true links here names ∨
      ∃ name x target, names = [name] ∧ looked here [name] = some x ∧
        t.nodeAt x = some (.link target) ∧ t.next false links here names = .arrived x := by
  rcases names with _ | ⟨name, rest⟩
  · exact .inl rfl
  cases hlooked : looked here (name :: rest) with
  | none => exact .inl (next_of_looked_eq_none hlooked t t true false)
  | some x =>
    rw [next_of_looked hlooked, next_of_looked hlooked]
    rcases hnode : t.nodeAt x with _ | _ | target | _
    · exact .inl rfl
    · exact .inl rfl
    · rcases rest with _ | ⟨second, rest⟩
      · exact .inr ⟨name, x, target, rfl, hlooked, hnode, rfl⟩
      · exact .inl rfl
    · exact .inl rfl

lemma passed_false_subset {x : Location} (h : x ∈ t.passed false links here names) :
    x ∈ t.passed true links here names := by
  induction links, here, names using t.follow_induction false with
  | step links here names ih =>
    rcases t.next_false_cases links here names with
      hsame | ⟨name, y, target, rfl, hlooked, -, harrived⟩
    · rw [passed, List.mem_append, Option.mem_toList] at h
      rcases h with h | h
      · exact mem_passed_of_looked h
      split at h
      · next heq =>
        obtain rfl := List.mem_singleton.mp h
        exact mem_passed_of_arrived (hsame ▸ heq)
      · cases h
      · next heq => exact mem_passed_of_onward (hsame ▸ heq) (ih _ _ _ heq h)
    · rw [passed, List.mem_append, Option.mem_toList] at h
      rcases h with h | h
      · exact mem_passed_of_looked h
      split at h
      · next heq =>
        obtain rfl := List.mem_singleton.mp h
        cases harrived.symm.trans heq
        exact mem_passed_of_looked hlooked
      · cases h
      · next heq => cases harrived.symm.trans heq

end Last

end Letterhead.Tree
