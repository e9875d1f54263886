import Letterhead.Proofs.Header.Rebuild

/-!
Where the lines of a file are when it is rebuilt.

What lies before the offset stays, notices of others move next to the header, and the lines that
are kept follow in their order. All other lines of the new file belong to the header.
-/

namespace Letterhead

/-- The positions, counted from `o` on, of the elements with a property. -/
def places {α : Type} (p : α → Bool) : (o : Nat) → List α → List Nat
  | _, [] => []
  | o, x :: xs => if p x then o :: places p (o + 1) xs else places p (o + 1) xs

section Places

variable {α : Type} {p : α → Bool} {o : Nat} {xs : List α}

lemma bounds_of_mem_places {i : Nat} (hi : i ∈ places p o xs) : o ≤ i ∧ i < o + xs.length := by
  induction xs generalizing o with
  | nil => simp [places] at hi
  | cons x xs ih =>
    have hrest : i ∈ places p (o + 1) xs → o ≤ i ∧ i < o + (x :: xs).length := by
      intro h
      have := ih h
      rw [List.length_cons]
      omega
    rw [places] at hi
    split at hi
    · rcases List.mem_cons.mp hi with rfl | hi
      · simp
      · exact hrest hi
    · exact hrest hi

lemma map_places {ls : List Text} (h : o + xs.length ≤ ls.length) :
    (places p o xs).map (ls.getD · []) =
      ((ls.drop o).zip xs).filterMap fun x => if p x.2 then some x.1 else none := by
  induction xs generalizing o with
  | nil => simp [places]
  | cons x xs ih =>
    rw [List.length_cons] at h
    have ho : o < ls.length := by omega
    have hget : ls.getD o [] = ls[o] := List.getD_eq_getElem ls [] ho
    rw [List.drop_eq_getElem_cons ho, List.zip_cons_cons, List.filterMap_cons, places,
      ← ih (by omega)]
    by_cases hp : p x = true
    · simp only [hp, if_true, List.map_cons, hget]
    · simp only [hp, if_false, Bool.false_eq_true]

lemma map_range' (ls : List Text) (a : Nat) :
    (List.range' a (ls.length - a)).map (ls.getD · []) = ls.drop a := by
  refine List.ext_getElem (by simp) fun i h1 h2 => ?_
  rw [List.length_drop] at h2
  rw [List.getElem_map, List.getElem_range', List.getElem_drop, Nat.one_mul,
    List.getD_eq_getElem ls [] (by omega)]

end Places

/-! ### Places in a rebuilt file -/

lemma getElem?_of_mem_zipIdx {ls pre rest : List Text} {ps : List Nat} {b : Nat}
    (hb : b = pre.length) (hps : ∀ p ∈ ps, p < ls.length) {x : Nat × Nat}
    (hx : x ∈ ps.zipIdx b) :
    (pre ++ ps.map (ls.getD · []) ++ rest)[x.2]? = ls[x.1]? := by
  subst hb
  obtain ⟨p, q⟩ := x
  obtain ⟨hq, hlt, hp⟩ := List.mem_zipIdx hx
  have hlt' : q - pre.length < ps.length := by omega
  have hlt_ls : p < ls.length := hps p (hp ▸ List.getElem_mem hlt')
  rw [List.append_assoc, List.getElem?_append_right hq,
    List.getElem?_append_left (by rwa [List.length_map]), List.getElem?_map,
    List.getElem?_eq_getElem hlt', ← hp, Option.map_some,
    List.getD_eq_getElem ls [] hlt_ls, List.getElem?_eq_getElem hlt_ls]

namespace Settings

variable (s : Settings) {ls : List Text} {ext filename : String} {e : LineEnd} {sc : Scan}

/-- The notices of others that move under an action. -/
def movedNotices (a : ThirdPartyAction) (sc : Scan) : List Nat :=
  if s.thirdParty.action = a then places (· = .thirdParty) sc.offset sc.kinds else []

/-- The lines from the offset on that are kept. -/
def keptPlaces (sc : Scan) (ls : List Text) : List Nat :=
  places (· = .kept) sc.offset (s.windowFates sc ls) ++
    List.range' sc.limit (ls.length - sc.limit)

/-- The lines that are still there when a file is rebuilt: their positions before and after. -/
def placed (sc : Scan) (ls : List Text) (e : LineEnd) : List (Nat × Nat) :=
  let below := sc.offset + (s.movedNotices .below sc).length + sc.header.lines.length
  let kept := below + (s.movedNotices .above sc).length + (separator sc ls e).length
  (List.range sc.offset).zipIdx ++ (s.movedNotices .below sc).zipIdx sc.offset ++
    (s.movedNotices .above sc).zipIdx below ++ (s.keptPlaces sc ls).zipIdx kept

lemma map_movedNotices (hi : s.inspect ls ext filename = .ok sc) (a : ThirdPartyAction) :
    (s.movedNotices a sc).map (ls.getD · []) =
      if s.thirdParty.action = a then sc.notices ls else [] := by
  unfold movedNotices
  split
  · rw [map_places (s.limit_le_of_inspect hi)]
    simp [Scan.notices]
  · rfl

lemma length_windowFates (hi : s.inspect ls ext filename = .ok sc) :
    (s.windowFates sc ls).length = sc.kinds.length := by
  rw [windowFates, length_fates, length_windowEntries, s.length_window hi]

lemma map_keptPlaces (hi : s.inspect ls ext filename = .ok sc) :
    (s.keptPlaces sc ls).map (ls.getD · []) =
      keptLines (sc.window ls) (s.windowFates sc ls) ++ ls.drop sc.limit := by
  have hlen := s.length_windowFates hi
  have hlim := s.limit_le_of_inspect hi
  have hzip : ((ls.drop sc.offset).zip (s.windowFates sc ls)).take sc.kinds.length =
      (sc.window ls).zip ((s.windowFates sc ls).take sc.kinds.length) := List.take_zipWith
  rw [List.take_of_length_le (by rw [List.length_zip, hlen]; exact Nat.min_le_right _ _),
    List.take_of_length_le (Nat.le_of_eq hlen)] at hzip
  rw [keptPlaces, List.map_append, map_range', map_places (by rw [hlen]; exact hlim), keptLines,
    hzip]
  simp

lemma rebuild_eq_places (hi : s.inspect ls ext filename = .ok sc) (e : LineEnd) :
    s.rebuild sc ls e = ls.take sc.offset ++ (s.movedNotices .below sc).map (ls.getD · []) ++
      headerLines sc e ++ (s.movedNotices .above sc).map (ls.getD · []) ++ separator sc ls e ++
      (s.keptPlaces sc ls).map (ls.getD · []) := by
  rw [s.rebuild_eq hi, s.map_movedNotices hi, s.map_movedNotices hi, s.map_keptPlaces hi]
  unfold inserted headerLines
  cases s.thirdParty.action <;> simp

lemma bounds_of_mem_movedNotices (hi : s.inspect ls ext filename = .ok sc)
    (a : ThirdPartyAction) : ∀ p ∈ s.movedNotices a sc, sc.offset ≤ p ∧ p < ls.length := by
  intro p hp
  have hlim := s.limit_le_of_inspect hi
  unfold Scan.limit at hlim
  unfold movedNotices at hp
  split at hp
  · have := bounds_of_mem_places hp
    omega
  · simp at hp

lemma bounds_of_mem_keptPlaces (hi : s.inspect ls ext filename = .ok sc) :
    ∀ p ∈ s.keptPlaces sc ls, sc.offset ≤ p ∧ p < ls.length := by
  intro p hp
  have hlim := s.limit_le_of_inspect hi
  have hlen := s.length_windowFates hi
  unfold keptPlaces at hp
  unfold Scan.limit at hlim hp
  rcases List.mem_append.mp hp with hp | hp
  · have := bounds_of_mem_places hp
    omega
  · have := List.mem_range'_1.mp hp
    omega

/-! ### A rebuilt file, read from the top -/

/-- A rebuilt file through its header. -/
def throughHeader (sc : Scan) (ls : List Text) (e : LineEnd) : List Text :=
  ls.take sc.offset ++ (s.movedNotices .below sc).map (ls.getD · []) ++ headerLines sc e

/-- A rebuilt file through the empty line behind header and notices. -/
def throughSeparator (sc : Scan) (ls : List Text) (e : LineEnd) : List Text :=
  s.throughHeader sc ls e ++ (s.movedNotices .above sc).map (ls.getD · []) ++ separator sc ls e

lemma length_throughHeader (hi : s.inspect ls ext filename = .ok sc) (e : LineEnd) :
    (s.throughHeader sc ls e).length =
      sc.offset + (s.movedNotices .below sc).length + sc.header.lines.length := by
  have ho := List.length_take_of_le (s.offset_le_of_inspect hi)
  rw [throughHeader, List.length_append, List.length_append, ho, List.length_map, headerLines,
    List.length_map]

lemma length_throughSeparator (hi : s.inspect ls ext filename = .ok sc) (e : LineEnd) :
    (s.throughSeparator sc ls e).length =
      sc.offset + (s.movedNotices .below sc).length + sc.header.lines.length +
        (s.movedNotices .above sc).length + (separator sc ls e).length := by
  rw [throughSeparator, List.length_append, List.length_append, s.length_throughHeader hi,
    List.length_map]

lemma rebuild_eq_throughSeparator (hi : s.inspect ls ext filename = .ok sc) (e : LineEnd) :
    s.rebuild sc ls e =
      s.throughSeparator sc ls e ++ (s.keptPlaces sc ls).map (ls.getD · []) ++ [] := by
  rw [s.rebuild_eq_places hi, List.append_nil]
  rfl

lemma rebuild_eq_throughHeader (hi : s.inspect ls ext filename = .ok sc) (e : LineEnd) :
    s.rebuild sc ls e = s.throughHeader sc ls e ++
      (s.movedNotices .above sc).map (ls.getD · []) ++
        (separator sc ls e ++ (s.keptPlaces sc ls).map (ls.getD · [])) := by
  rw [s.rebuild_eq_places hi, ← List.append_assoc]
  rfl

lemma rebuild_eq_take (hi : s.inspect ls ext filename = .ok sc) (e : LineEnd) :
    ∃ rest, s.rebuild sc ls e =
      ls.take sc.offset ++ (s.movedNotices .below sc).map (ls.getD · []) ++ rest := by
  rw [s.rebuild_eq_places hi]
  exact ⟨_, by simp only [List.append_assoc]; rfl⟩

lemma getElem?_of_mem_placed (hi : s.inspect ls ext filename = .ok sc) (e : LineEnd) :
    ∀ x ∈ s.placed sc ls e, (s.rebuild sc ls e)[x.2]? = ls[x.1]? := by
  intro x hx
  have ho := s.offset_le_of_inspect hi
  simp only [placed, List.mem_append] at hx
  rcases hx with ((hx | hx) | hx) | hx
  · obtain ⟨i, j⟩ := x
    obtain ⟨-, hlt, hj⟩ := List.mem_zipIdx hx
    obtain rfl : i = j := by simpa using hj
    obtain ⟨rest, hrest⟩ := s.rebuild_eq_take hi e
    have hi : i < sc.offset := by simpa using hlt
    rw [hrest, List.append_assoc, List.getElem?_append_left (by rw [List.length_take]; omega),
      List.getElem?_take_of_lt hi]
  · obtain ⟨rest, hrest⟩ := s.rebuild_eq_take hi e
    rw [hrest]
    exact getElem?_of_mem_zipIdx (List.length_take_of_le ho).symm
      (fun p hp => (s.bounds_of_mem_movedNotices hi _ p hp).2) hx
  · rw [s.rebuild_eq_throughHeader hi]
    exact getElem?_of_mem_zipIdx (s.length_throughHeader hi e).symm
      (fun p hp => (s.bounds_of_mem_movedNotices hi _ p hp).2) hx
  · rw [s.rebuild_eq_throughSeparator hi]
    exact getElem?_of_mem_zipIdx (s.length_throughSeparator hi e).symm
      (fun p hp => (s.bounds_of_mem_keptPlaces hi p hp).2) hx

lemma exists_mem_zipIdx {ps : List Nat} {b q : Nat} (hb : b ≤ q) (hq : q < b + ps.length) :
    ∃ p, (p, q) ∈ ps.zipIdx b := by
  have hlt : q - b < ps.length := by omega
  exact ⟨ps[q - b], List.mk_mem_zipIdx_iff_le_and_getElem?_sub.mpr
    ⟨hb, List.getElem?_eq_getElem hlt⟩⟩

lemma exists_mem_placed (hi : s.inspect ls ext filename = .ok sc) {q : Nat} {l : Text}
    (hl : (s.rebuild sc ls e)[q]? = some l) :
    (∃ p, (p, q) ∈ s.placed sc ls e) ∨ l ∈ headerLines sc e ∨ l = e.tail := by
  have ho := List.length_take_of_le (s.offset_le_of_inspect hi)
  have hheader := s.length_throughHeader hi e
  have hsep := s.length_throughSeparator hi e
  have hplaced : ∀ p, (p, q) ∈ (List.range sc.offset).zipIdx ∨
      (p, q) ∈ (s.movedNotices .below sc).zipIdx sc.offset ∨
      (p, q) ∈ (s.movedNotices .above sc).zipIdx (s.throughHeader sc ls e).length ∨
      (p, q) ∈ (s.keptPlaces sc ls).zipIdx (s.throughSeparator sc ls e).length →
      (p, q) ∈ s.placed sc ls e := by
    intro p hp
    rw [hheader, hsep] at hp
    simp only [placed, List.mem_append]
    tauto
  rcases Nat.lt_or_ge q sc.offset with h1 | h1
  · obtain ⟨p, hp⟩ : ∃ p, (p, q) ∈ (List.range sc.offset).zipIdx :=
      exists_mem_zipIdx (Nat.zero_le q) (by simpa)
    exact Or.inl ⟨p, hplaced p (Or.inl hp)⟩
  rcases Nat.lt_or_ge q (sc.offset + (s.movedNotices .below sc).length) with h2 | h2
  · obtain ⟨p, hp⟩ := exists_mem_zipIdx h1 h2
    exact Or.inl ⟨p, hplaced p (Or.inr (Or.inl hp))⟩
  rcases Nat.lt_or_ge q (s.throughHeader sc ls e).length with h3 | h3
  · rw [s.rebuild_eq_throughHeader hi, List.append_assoc, List.getElem?_append_left h3,
      throughHeader, List.getElem?_append_right
        (by rw [List.length_append, ho, List.length_map]; exact h2)] at hl
    exact Or.inr (Or.inl (List.mem_of_getElem? hl))
  rcases Nat.lt_or_ge q
    ((s.throughHeader sc ls e).length + (s.movedNotices .above sc).length) with h4 | h4
  · obtain ⟨p, hp⟩ := exists_mem_zipIdx h3 h4
    exact Or.inl ⟨p, hplaced p (Or.inr (Or.inr (Or.inl hp)))⟩
  rcases Nat.lt_or_ge q (s.throughSeparator sc ls e).length with h5 | h5
  · rw [s.rebuild_eq_throughSeparator hi, List.append_assoc, List.getElem?_append_left h5,
      throughSeparator, List.getElem?_append_right
        (by rw [List.length_append, List.length_map]; exact h4)] at hl
    have hmem := List.mem_of_getElem? hl
    unfold separator at hmem
    split at hmem
    · simp at hmem
    · exact Or.inr (Or.inr (by simpa using hmem))
  · have hq := (List.getElem?_eq_some_iff.mp hl).1
    rw [s.rebuild_eq_throughSeparator hi, List.append_nil, List.length_append,
      List.length_map] at hq
    obtain ⟨p, hp⟩ := exists_mem_zipIdx h5 hq
    exact Or.inl ⟨p, hplaced p (Or.inr (Or.inr (Or.inr hp)))⟩

end Settings

end Letterhead
