import Mathlib.Data.List.DropRight
import Mathlib.Data.List.TakeWhile
import Letterhead.Proofs.Selection
import Letterhead.Proofs.Pattern.Glob.Descend

/-!
A pattern without two stars in a row covers what lies below the folders it matches.

The pattern is tried as it stands and with `/**` behind it, each with its braces taken apart. A
pattern that the braces stand for and that matches the folder has a counterpart with `/**` behind
it, or ends in a span itself, and either of them matches what lies below.
-/

namespace Letterhead.Pattern.Glob

variable {cs d r : List Char}

/-! ### Relative paths -/

/-- The path has parts, none of which is empty, `.` or `..`, and no backslash. -/
def IsRelative (path : List Char) : Prop :=
  '\\' ∉ path ∧ ∀ part ∈ path.splitOn '/', part ≠ [] ∧ part ≠ ['.'] ∧ part ≠ ['.', '.']

instance (path : List Char) : Decidable (IsRelative path) := inferInstanceAs (Decidable (_ ∧ _))

namespace IsRelative

lemma append (hd : IsRelative d) (hr : IsRelative r) : IsRelative (d ++ '/' :: r) := by
  refine ⟨?_, fun part hpart => ?_⟩
  · simp [hd.1, hr.1]
  · rw [List.splitOn_append_cons_self, List.mem_append] at hpart
    exact hpart.elim (hd.2 part) (hr.2 part)

lemma ne_nil (hd : IsRelative d) : d ≠ [] := by
  rintro rfl
  exact (hd.2 [] (by simp)).1 rfl

lemma not_slash_suffix (hd : IsRelative d) : ¬ ['/'] <:+ d := by
  rintro ⟨front, rfl⟩
  refine (hd.2 [] ?_).1 rfl
  rw [List.splitOn_append_cons_self]
  simp

lemma of_suffix {rest : List Char} (hr : IsRelative r) (h : '/' :: rest <:+ '/' :: r) :
    IsRelative rest := by
  rcases List.suffix_cons_iff.mp h with heq | ⟨front, rfl⟩
  · exact (List.cons.inj heq).2 ▸ hr
  · refine ⟨fun hmem => hr.1 (by simp [hmem]), fun part hpart => hr.2 part ?_⟩
    rw [List.splitOn_append_cons_self]
    exact List.mem_append_right _ hpart

/-- A relative path that opens with points has a line feed behind them and nothing else. -/
lemma eq_of_isDots (hr : IsRelative r) (hdots : isDots r = true) :
    r = ['.', '\n'] ∨ r = ['.', '.', '\n'] := by
  have hpoint (point rest : List Char) (heq : r = point ++ rest) (hslash : '/' ∉ point)
      (hpoint : point = ['.'] ∨ point = ['.', '.']) (hend : atSegmentEnd rest = true) :
      rest = ['\n'] := by
    have hnot : point ∉ r.splitOn '/' := fun hmem =>
      hpoint.elim (hr.2 point hmem).2.1 (hr.2 point hmem).2.2
    rw [atSegmentEnd, Bool.or_eq_true, Bool.or_eq_true, beq_iff_eq, beq_iff_eq, beq_iff_eq] at hend
    rcases hend with (rfl | hline) | hhead
    · refine absurd ?_ hnot
      rw [heq, List.append_nil, List.splitOn_eq_singleton hslash]
      exact List.mem_singleton_self _
    · exact hline
    · obtain ⟨rest, rfl⟩ := List.head?_eq_some_iff.mp hhead
      refine absurd ?_ hnot
      rw [heq, List.splitOn_append_cons_self_of_not_mem hslash]
      exact List.mem_cons_self
  obtain ⟨rest, heq | heq, hend⟩ := isDots_iff.mp hdots
  · exact .inl (by rw [heq, hpoint ['.'] rest heq (by decide) (.inl rfl) hend])
  · exact .inr (by rw [heq, hpoint ['.', '.'] rest heq (by decide) (.inr rfl) hend])

lemma noDots (hr : IsRelative r) (hends : ¬ EndsInDots r) : NoDots ('/' :: r) := by
  intro rest hsuffix
  refine Bool.eq_false_iff.mpr fun hdots => hends ?_
  rcases (hr.of_suffix hsuffix).eq_of_isDots hdots with rfl | rfl
  · exact .inl hsuffix
  · exact .inr hsuffix

end IsRelative

/-! ### Patterns and paths as they are compared -/

lemma stripDots_suffix (cs : List Char) : normalize.stripDots cs <:+ cs := by
  fun_induction normalize.stripDots cs with
  | case1 rest ih => exact ih.trans (List.suffix_append ['.', '/'] rest)
  | case2 => exact List.suffix_rfl

lemma stripDots_of_isRelative (hd : IsRelative d) : normalize.stripDots d = d := by
  rw [normalize.stripDots.eq_def]
  split
  · next rest =>
    refine absurd rfl (hd.2 ['.'] ?_).2.1
    have hparts : ('.' :: '/' :: rest).splitOn '/' = ['.'] :: rest.splitOn '/' :=
      List.splitOn_append_cons_self_of_not_mem (show '/' ∉ ['.'] by decide) rest
    rw [hparts]
    exact List.mem_cons_self
  · rfl

/-- A slash for a backslash. -/
def slashFor (c : Char) : Char := if c = '\\' then '/' else c

lemma normalize_eq (path : String) :
    normalize path = normalize.stripDots (path.toList.map slashFor) := rfl

lemma normalize_of_isRelative {path : String} (h : IsRelative path.toList) :
    normalize path = path.toList := by
  have hmap : path.toList.map slashFor = path.toList := by
    refine (List.map_congr_left fun c hc => if_neg ?_).trans (List.map_id _)
    rintro rfl
    exact h.1 hc
  rw [normalize_eq, hmap, stripDots_of_isRelative h]

lemma hasStars_map_slashFor (cs : List Char) : hasStars (cs.map slashFor) = hasStars cs := by
  have hstar (c : Char) : (slashFor c == '*') = (c == '*') := by
    unfold slashFor
    split
    · next heq => rw [heq]; rfl
    · rfl
  induction cs with
  | nil => rfl
  | cons c cs ih =>
    rw [List.map_cons, hasStars_cons, hasStars_cons, ih, hstar]
    rcases cs with _ | ⟨d, cs⟩
    · rfl
    · rw [List.map_cons, List.head?_cons, List.head?_cons, Option.some_beq_some,
        Option.some_beq_some, hstar]

lemma hasStars_normalize {p : String} (h : hasStars p.toList = false) :
    hasStars (normalize p) = false :=
  hasStars_of_suffix (stripDots_suffix _) ((hasStars_map_slashFor _).trans h)

/-! ### What a pattern is tried as -/

lemma mem_dropEmptyEnd {x : List Char} (hx : x ≠ []) {ts : List (List Char)} :
    x ∈ Braced.dropEmptyEnd ts ↔ x ∈ ts := by
  have hmem : x ∈ (ts.reverse.dropWhile List.isEmpty).reverse ↔ x ∈ ts := by
    rw [List.mem_reverse]
    refine ⟨fun h => List.mem_reverse.mp ((List.dropWhile_suffix _).subset h), fun h => ?_⟩
    have hsplit := List.mem_reverse.mpr h
    rw [← List.takeWhile_append_dropWhile (p := List.isEmpty) (l := ts.reverse),
      List.mem_append] at hsplit
    exact hsplit.resolve_left fun hempty =>
      hx (List.isEmpty_iff.mp (List.mem_takeWhile_imp hempty))
  rw [← hmem, Braced.dropEmptyEnd]
  split
  · next hend =>
    rw [hend]
    simp [hx]
  · rfl

lemma mem_of_expand? {room : Nat} {found : List (List Char)}
    (h : Braced.expand? room cs = some found) {x : List Char} (hx : x ≠ []) :
    x ∈ found ↔ x ∈ unbraced cs := by
  unfold Braced.expand? at h
  dsimp only at h
  split at h
  · rw [← Option.some.inj h]
    exact mem_dropEmptyEnd hx
  · cases h

lemma mem_of_expandAll? {room : Nat} {patterns found : List (List Char)}
    (h : expandAll? room patterns = some found) {x : List Char} (hx : x ≠ []) :
    x ∈ found ↔ ∃ cs ∈ patterns, x ∈ unbraced cs := by
  induction patterns generalizing room found with
  | nil =>
    rw [← Option.some.inj h]
    simp
  | cons cs patterns ih =>
    obtain ⟨found, hfound, h⟩ := Option.bind_eq_some_iff.mp h
    obtain ⟨others, hothers, heq⟩ := Option.bind_eq_some_iff.mp h
    rw [← Option.some.inj heq, List.mem_append, mem_of_expand? hfound hx, ih hothers]
    simp

lemma plainMatches_iff {x path : List Char} (hpath : path ≠ []) :
    plainMatches x path = true ↔ x ≠ [] ∧ runAll (pieces x) true path = true := by
  rw [plainMatches]
  split
  · next hempty =>
    simp [List.isEmpty_iff.mp hempty, hpath]
  · next hempty =>
    rw [List.isEmpty_iff] at hempty
    simp [hempty, pathMatches]

lemma matchesPath_eq_ok_true_iff {pattern path : String} (hpath : normalize path ≠ []) :
    matchesPath pattern path = .ok true ↔
      (expandAll? limit (candidates (normalize pattern))).isSome = true ∧
        ∃ cs ∈ candidates (normalize pattern), ∃ x ∈ unbraced cs,
          plainMatches x (normalize path) = true := by
  rw [matchesPath]
  rcases hfound : expandAll? limit (candidates (normalize pattern)) with _ | found
  · simp
  · have hmem (x : List Char) (hx : plainMatches x (normalize path) = true) :
        x ∈ found ↔ ∃ cs ∈ candidates (normalize pattern), x ∈ unbraced cs :=
      mem_of_expandAll? hfound ((plainMatches_iff hpath).mp hx).1
    simp only [Option.isSome_some, true_and, Except.ok.injEq, List.any_eq_true]
    constructor
    · rintro ⟨x, hx, hmatch⟩
      obtain ⟨cs, hcs, hmem⟩ := (hmem x hmatch).mp hx
      exact ⟨cs, hcs, x, hmem, hmatch⟩
    · rintro ⟨cs, hcs, x, hx, hmatch⟩
      exact ⟨x, (hmem x hmatch).mpr ⟨cs, hcs, hx⟩, hmatch⟩

lemma exists_trimSlashes (cs : List Char) :
    ∃ n, cs = trimSlashes cs ++ List.replicate n '/' := by
  have hslashes : cs.reverse.takeWhile (· == '/') =
      List.replicate (cs.reverse.takeWhile (· == '/')).length '/' :=
    List.eq_replicate_of_mem fun c hc => by simpa using List.mem_takeWhile_imp hc
  refine ⟨(cs.reverse.takeWhile (· == '/')).length, ?_⟩
  rw [trimSlashes, ← List.reverse_replicate, ← hslashes, ← List.reverse_append,
    List.takeWhile_append_dropWhile, List.reverse_reverse]

lemma below_trimSlashes_mem (h : hasStars cs = false) : below (trimSlashes cs) ∈ candidates cs := by
  simp [candidates, h]

lemma mem_candidates {y : List Char} (h : y ∈ candidates cs) :
    y = cs ∨ ∃ front tail, IsInert tail ∧ cs = front ++ tail ∧ y = below front := by
  rw [candidates, List.mem_append, List.mem_cons] at h
  rcases h with (rfl | h) | h
  · exact .inl rfl
  · split at h
    · cases h
    · obtain ⟨n, hn⟩ := exists_trimSlashes cs
      exact .inr ⟨trimSlashes cs, List.replicate n '/',
        fun c hc => .inl (List.eq_of_mem_replicate hc), hn, List.mem_singleton.mp h⟩
  · split at h
    · next front hfront =>
      refine .inr ⟨front.reverse, ['/', '*'], by simp [IsInert], ?_, List.mem_singleton.mp h⟩
      rw [← List.reverse_reverse cs, hfront]
      simp
    · cases h

lemma mem_unbraced_below {y : List Char} :
    y ∈ unbraced (below cs) ↔ ∃ x ∈ unbraced cs, y = below x := by
  rw [below, unbraced_append (by simp [IsInert]), List.mem_map]
  simp only [below, eq_comm]

/-! ### What lies below -/

lemma runAll_slashes {ps : List Piece} {first : Bool} (h : ¬ ['/'] <:+ d) :
    runAll (ps ++ [.slashes]) first d = false := by
  refine Bool.eq_false_iff.mpr fun hrun => ?_
  induction ps generalizing first d with
  | nil =>
    have hne : d ≠ [] := by rintro rfl; cases hrun
    exact not_all_slashes h hne (someSlashes_last hrun)
  | cons p ps ih =>
    obtain ⟨first', d', hsuffix, hrun⟩ := exists_of_run hrun
    exact ih (fun hends => h (hends.trans hsuffix)) hrun

section Covers

variable {p x : List Char} (hd : IsRelative d) (hbelow : NoDots ('/' :: r))

include hd hbelow

lemma exists_below_of_pattern (hstars : hasStars p = false) (hx : x ∈ unbraced p)
    (hmatch : plainMatches x d = true) :
    ∃ y ∈ candidates p, ∃ x ∈ unbraced y, plainMatches x (d ++ '/' :: r) = true := by
  have hne : d ++ '/' :: r ≠ [] := by simp
  obtain ⟨hempty, hrun⟩ := (plainMatches_iff hd.ne_nil).mp hmatch
  obtain ⟨n, hn⟩ := exists_trimSlashes p
  have hslashes : IsInert (List.replicate n '/') :=
    fun c hc => .inl (List.eq_of_mem_replicate hc)
  obtain ⟨x', hx', heq⟩ : ∃ x' ∈ unbraced (trimSlashes p), x' ++ List.replicate n '/' = x := by
    rw [hn, unbraced_append hslashes, List.mem_map] at hx
    exact hx
  have hpieces : pieces x = pieces x' := by
    rw [← heq]
    refine (pieces_append_slashes x' n).resolve_right fun hlast => ?_
    rw [← heq, hlast, runAll_slashes hd.not_slash_suffix] at hrun
    cases hrun
  have hcovered : runAll (covered (pieces x')) true (d ++ '/' :: r) = true := by
    rw [← hpieces]
    exact runAll_covered_append (isChain_pieces x) hd.not_slash_suffix hbelow hrun
  rcases pieces_below x' with hspan | ⟨hspanned, -⟩
  · refine ⟨_, below_trimSlashes_mem hstars, below x', mem_unbraced_below.mpr ⟨x', hx', rfl⟩, ?_⟩
    exact (plainMatches_iff hne).mpr ⟨by simp [below], hspan ▸ hcovered⟩
  · refine ⟨p, List.mem_cons_self, x, hx, (plainMatches_iff hne).mpr ⟨hempty, ?_⟩⟩
    rw [hpieces, ← covered_of_isSpanned hspanned]
    exact hcovered

lemma plainMatches_of_front {front : List Char} (hx : x ∈ unbraced (below front))
    (hmatch : plainMatches x d = true) :
    plainMatches x (d ++ '/' :: r) = true := by
  obtain ⟨hempty, hrun⟩ := (plainMatches_iff hd.ne_nil).mp hmatch
  obtain ⟨x', hx', rfl⟩ := mem_unbraced_below.mp hx
  refine (plainMatches_iff (by simp)).mpr ⟨hempty, ?_⟩
  rw [← covered_of_isSpanned (isSpanned_pieces_below x')]
  exact runAll_covered_append (isChain_pieces _) hd.not_slash_suffix hbelow hrun

lemma exists_below (hstars : hasStars p = false) {y : List Char} (hy : y ∈ candidates p)
    (hx : x ∈ unbraced y) (hmatch : plainMatches x d = true) :
    ∃ y ∈ candidates p, ∃ x ∈ unbraced y, plainMatches x (d ++ '/' :: r) = true := by
  rcases mem_candidates hy with rfl | ⟨front, -, -, -, rfl⟩
  · exact exists_below_of_pattern hd hbelow hstars hx hmatch
  · exact ⟨_, hy, x, hx, plainMatches_of_front hd hbelow hx hmatch⟩

end Covers

lemma eq_of_endsInDots {p x y : List Char} (hends : EndsInDots r) (hy : y ∈ candidates p)
    (hx : x ∈ unbraced y) (hmatch : plainMatches x (d ++ '/' :: r) = true) : y = p := by
  refine (mem_candidates hy).resolve_right ?_
  rintro ⟨front, tail, -, -, rfl⟩
  obtain ⟨x', -, rfl⟩ := mem_unbraced_below.mp hx
  obtain ⟨-, hrun⟩ := (plainMatches_iff (by simp)).mp hmatch
  rw [runAll_dots (isSpanned_pieces_below x') (isChain_pieces _) hends
    (List.suffix_append d _)] at hrun
  cases hrun

/-- **A pattern covers what lies below the folders that it matches**, if it has no two stars in a
row; and it does not see a `./` in front of a path. A path whose last part is `.` or `..` with a
line feed behind it is covered just if the pattern matches it as it stands. -/
theorem matchesPath_below (p d : String) :
    matchesPath p ("./" ++ d) = matchesPath p d ∧
    ∀ r : String, hasStars p.toList = false → IsRelative d.toList → IsRelative r.toList →
      matchesPath p d = .ok true →
      (matchesPath p (d ++ "/" ++ r) = .ok true ↔
        ¬ EndsInDots r.toList ∨
          ∃ x ∈ unbraced (normalize p), plainMatches x (d ++ "/" ++ r).toList = true) := by
  refine ⟨matchesPath_point p d, fun r hstars hd hr hmatch => ?_⟩
  have hpath : (d ++ "/" ++ r).toList = d.toList ++ '/' :: r.toList := by simp
  have hlong : IsRelative (d ++ "/" ++ r).toList := hpath ▸ hd.append hr
  have hnormal := normalize_of_isRelative hlong
  rw [matchesPath_eq_ok_true_iff (by rw [normalize_of_isRelative hd]; exact hd.ne_nil),
    normalize_of_isRelative hd] at hmatch
  obtain ⟨hfew, y, hy, x, hx, hmatch⟩ := hmatch
  rw [matchesPath_eq_ok_true_iff (by rw [hnormal]; exact hlong.ne_nil), hnormal, hpath]
  constructor
  · rintro ⟨-, y, hy, x, hx, hmatch⟩
    by_cases hends : EndsInDots r.toList
    · obtain rfl := eq_of_endsInDots hends hy hx hmatch
      exact .inr ⟨x, hx, hmatch⟩
    · exact .inl hends
  · rintro (hends | ⟨x, hx, hmatch⟩)
    · exact ⟨hfew, exists_below hd (hr.noDots hends) (hasStars_normalize hstars) hy hx hmatch⟩
    · exact ⟨hfew, normalize p, List.mem_cons_self, x, hx, hmatch⟩

deriving instance DecidableEq for TooMany

/-- Either of two folders, and a file in a folder of one of them. -/
theorem images_covered :
    (hasStars "./assets/\x7bimg,css\x7d".toList = false ∧ IsRelative "assets/img".toList ∧
      IsRelative "logo/a.png".toList ∧ ¬ EndsInDots "logo/a.png".toList ∧
      matchesPath "./assets/\x7bimg,css\x7d" "assets/img" = .ok true) ∧
    matchesPath "./assets/\x7bimg,css\x7d" ("assets/img" ++ "/" ++ "logo/a.png") = .ok true := by
  have hcovered := (matchesPath_below "./assets/\x7bimg,css\x7d" "assets/img").2 "logo/a.png"
    (by decide +kernel) (by decide +kernel) (by decide +kernel) (by decide +kernel)
  exact ⟨by decide +kernel, hcovered.mpr (.inl (by decide +kernel))⟩

/-- A folder that is matched, and a file in it that is not: a span enters no part that is `.`, and
such a part also ends in front of a last line feed. -/
theorem dots_not_covered :
    hasStars "a".toList = false ∧ IsRelative "a".toList ∧ IsRelative ".\n".toList ∧
      matchesPath "a" "a" = .ok true ∧ matchesPath "a" ("a" ++ "/" ++ ".\n") = .ok false := by
  decide +kernel

end Letterhead.Pattern.Glob
