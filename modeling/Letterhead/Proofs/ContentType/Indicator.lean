import Mathlib.Data.List.Nodup
import Mathlib.Data.List.TakeWhile
import Letterhead.ContentType
import Letterhead.Proofs.Text.Part

/-!
The candidate with the most parts in a file wins, if it is the only one with so many.

Told by candidates and not by the search for the best score, so that it is plain that their order
makes no difference.
-/

namespace Letterhead.ContentType

open Settings (Indicator)

variable {f f' : Settings.Files} {candidates : List (String × Indicator)} {t name : Text}
  {path ext : String} {i : Indicator}

/-! ### Ratings -/

/-- The parts that speak for a text that has them; an empty one speaks for nothing. -/
def speaking (parts : List String) (t : Text) : List String :=
  parts.filter fun p => p ≠ "" ∧ Text.ofString p <:+: t

/-- How many parts speak for the candidate, repeated ones counted as often as they are listed. -/
def rating (i : Indicator) (t name : Text) : Nat :=
  (speaking i.content t).length + (speaking i.filename name).length

lemma hits_eq (parts : List String) (t : Text) : hits parts t = (speaking parts t).length := by
  rw [hits, List.countP_eq_length_filter, speaking]
  refine congrArg List.length (List.filter_congr fun p _ => Bool.eq_iff_iff.mpr ?_)
  rw [Bool.and_eq_true, bne_iff_ne, Text.hasPart_iff, decide_eq_true_eq]

lemma score_eq (i : Indicator) (t name : Text) : score i t name = rating i t name := by
  rw [score, rating, hits_eq, hits_eq]

/-! ### The winner -/

/-- Something speaks for the candidate, and less for every other one. -/
def Wins (candidates : List (String × Indicator)) (t name : Text) (ext : String) : Prop :=
  ∃ i, (ext, i) ∈ candidates ∧ 0 < rating i t name ∧
    ∀ c ∈ candidates, c.1 ≠ ext → rating c.2 t name < rating i t name

/-- The extension of a text: that of the winner if there is one, the default one otherwise. -/
inductive IsChosen (f : Settings.Files) (t name : Text) : String → Prop where
  | winner {ext : String} (h : Wins f.smartIndicators t name ext) : IsChosen f t name ext
  | default (h : ∀ ext, ¬ Wins f.smartIndicators t name ext) : IsChosen f t name f.smartDefault

lemma Wins.unique {other : String} (h : Wins candidates t name ext)
    (hother : Wins candidates t name other) : ext = other := by
  obtain ⟨i, hi, -, habove⟩ := h
  obtain ⟨j, hj, -, habove'⟩ := hother
  by_contra hne
  exact lt_asymm (habove _ hj (Ne.symm hne)) (habove' _ hi hne)

lemma IsChosen.unique {other : String} (h : IsChosen f t name ext)
    (hother : IsChosen f t name other) : ext = other := by
  rcases h with h | h
  · rcases hother with hother | hother
    · exact h.unique hother
    · exact absurd h (hother ext)
  · rcases hother with hother | hother
    · exact absurd hother (h other)
    · rfl

lemma foldl_max_eq_iff {ns : List Nat} {n : Nat} :
    ns.foldl max 0 = n ↔ n ∈ 0 :: ns ∧ ∀ m ∈ 0 :: ns, m ≤ n := by
  rw [← List.max?_eq_some_iff, List.max?_cons', Option.some_inj]

/-- The ratings of the candidates, by extension. -/
def ratings (candidates : List (String × Indicator)) (t name : Text) : List (String × Nat) :=
  candidates.map fun c => (c.1, rating c.2 t name)

lemma map_fst_ratings (candidates : List (String × Indicator)) (t name : Text) :
    (ratings candidates t name).map (·.1) = candidates.map (·.1) := by
  rw [ratings, List.map_map]
  rfl

lemma mem_ratings {c : String × Nat} : c ∈ ratings candidates t name ↔
    ∃ i, (c.1, i) ∈ candidates ∧ rating i t name = c.2 := by
  rw [ratings, List.mem_map]
  constructor
  · rintro ⟨d, hd, rfl⟩
    exact ⟨d.2, hd, rfl⟩
  · rintro ⟨i, hi, hrating⟩
    exact ⟨_, hi, Prod.ext rfl hrating⟩

/-- The best of the ratings, or zero. -/
def best (candidates : List (String × Indicator)) (t name : Text) : Nat :=
  ((ratings candidates t name).map (·.2)).foldl max 0

lemma best_eq_iff {n : Nat} : best candidates t name = n ↔
    (n = 0 ∨ ∃ c ∈ candidates, rating c.2 t name = n) ∧
      ∀ c ∈ candidates, rating c.2 t name ≤ n := by
  rw [best, foldl_max_eq_iff, ratings, List.map_map]
  simp only [List.mem_cons, List.mem_map, Function.comp_apply, forall_eq_or_imp, Nat.zero_le,
    true_and, forall_exists_index, and_imp, forall_apply_eq_imp_iff₂]

lemma winner?_eq (candidates : List (String × Indicator)) (t name : Text) :
    winner? candidates t name =
      match (ratings candidates t name).filter (·.2 = best candidates t name) with
      | [(ext, _)] => if best candidates t name = 0 then none else some ext
      | _ => none := by
  simp only [winner?, score_eq]
  rfl

lemma wins_of_winner? (h : winner? candidates t name = some ext) : Wins candidates t name ext := by
  rw [winner?_eq] at h
  obtain ⟨-, hbest⟩ := best_eq_iff.mp (rfl : best candidates t name = _)
  split at h
  · next ext' n hfilter =>
    split at h
    · cases h
    next hpositive =>
    obtain rfl := Option.some.inj h
    have hmem : ∀ c, c ∈ (ratings candidates t name).filter (·.2 = best candidates t name) ↔
        c = (ext', n) := fun c => by rw [hfilter, List.mem_singleton]
    simp only [List.mem_filter, decide_eq_true_eq] at hmem
    obtain ⟨hn, hn'⟩ := (hmem (ext', n)).mpr rfl
    obtain ⟨i, hi, hrating⟩ := mem_ratings.mp hn
    refine ⟨i, hi, by rw [hrating, hn']; exact Nat.pos_of_ne_zero hpositive, fun c hc hne => ?_⟩
    rw [hrating, hn']
    refine lt_of_le_of_ne (hbest c hc) fun heq => hne ?_
    exact congrArg Prod.fst
      ((hmem (c.1, rating c.2 t name)).mp ⟨mem_ratings.mpr ⟨c.2, hc, rfl⟩, heq⟩)
  · cases h

section

variable (hkeys : (candidates.map (·.1)).Nodup) (hi : (ext, i) ∈ candidates)
  (habove : ∀ c ∈ candidates, c.1 ≠ ext → rating c.2 t name < rating i t name)

include hkeys hi habove

lemma best_of_wins : best candidates t name = rating i t name := by
  refine best_eq_iff.mpr ⟨.inr ⟨_, hi, rfl⟩, fun c hc => ?_⟩
  by_cases heq : c.1 = ext
  · have hsame : c = (ext, i) := List.inj_on_of_nodup_map hkeys hc hi heq
    rw [hsame]
  · exact (habove c hc heq).le

/-- Nothing else has the rating of the winner. -/
lemma filter_ratings_of_wins :
    (ratings candidates t name).filter (·.2 = best candidates t name) =
      [(ext, rating i t name)] := by
  have hnodup : (ratings candidates t name).Nodup :=
    List.Nodup.of_map (·.1) (map_fst_ratings candidates t name ▸ hkeys)
  refine List.perm_singleton.mp ((List.perm_ext_iff_of_nodup (hnodup.filter _)
    (List.nodup_singleton _)).mpr fun c => ?_)
  rw [List.mem_singleton, List.mem_filter, decide_eq_true_eq, best_of_wins hkeys hi habove,
    mem_ratings]
  constructor
  · rintro ⟨⟨j, hj, hrating⟩, heq⟩
    refine Prod.ext ?_ heq
    by_contra hne
    exact (habove _ hj hne).ne (hrating.trans heq)
  · rintro rfl
    exact ⟨⟨i, hi, rfl⟩, rfl⟩

end

lemma winner?_eq_some_iff (hkeys : (candidates.map (·.1)).Nodup) :
    winner? candidates t name = some ext ↔ Wins candidates t name ext := by
  refine ⟨wins_of_winner?, ?_⟩
  rintro ⟨i, hi, hpositive, habove⟩
  rw [winner?_eq, filter_ratings_of_wins hkeys hi habove]
  exact if_neg (best_of_wins hkeys hi habove ▸ hpositive.ne')

lemma isChosen_ofText (hsome : f.smartIndicators ≠ [])
    (hkeys : (f.smartIndicators.map (·.1)).Nodup) :
    IsChosen f t (baseName path) (ofText f t path) := by
  have hempty : f.smartIndicators.isEmpty = false := by
    rwa [← Bool.not_eq_true, List.isEmpty_iff]
  have heq : ofText f t path =
      (winner? f.smartIndicators t (baseName path)).getD f.smartDefault := by
    rw [ofText, hempty]
    rfl
  rw [heq]
  cases hwinner : winner? f.smartIndicators t (baseName path) with
  | some ext => exact .winner ((winner?_eq_some_iff hkeys).mp hwinner)
  | none =>
    refine .default fun ext h => ?_
    rw [(winner?_eq_some_iff hkeys).mpr h] at hwinner
    cases hwinner

/-! ### Other orders -/

/-- The same candidates with the same parts, each in another order. -/
def IsReordered (candidates candidates' : List (String × Indicator)) : Prop :=
  ∃ mid, candidates.Perm mid ∧
    List.Forall₂ (fun c d => c.1 = d.1 ∧ c.2.content.Perm d.2.content ∧
      c.2.filename.Perm d.2.filename) mid candidates'

lemma rating_of_perm {j : Indicator} (hcontent : i.content.Perm j.content)
    (hfilename : i.filename.Perm j.filename) : rating i t name = rating j t name := by
  rw [rating, rating, speaking, speaking, (hcontent.filter _).length_eq,
    (hfilename.filter _).length_eq, speaking, speaking]

lemma IsReordered.ratings_perm {candidates' : List (String × Indicator)}
    (h : IsReordered candidates candidates') (t name : Text) :
    (ratings candidates t name).Perm (ratings candidates' t name) := by
  obtain ⟨mid, hperm, hentries⟩ := h
  have hmid : ratings mid t name = ratings candidates' t name := by
    clear hperm
    rw [ratings, ratings]
    induction hentries with
    | nil => rfl
    | cons h _ ih =>
      obtain ⟨hkey, hcontent, hfilename⟩ := h
      rw [List.map_cons, List.map_cons, ih, hkey, rating_of_perm hcontent hfilename]
  exact hmid ▸ hperm.map _

lemma wins_iff : Wins candidates t name ext ↔
    ∃ n, (ext, n) ∈ ratings candidates t name ∧ 0 < n ∧
      ∀ c ∈ ratings candidates t name, c.1 ≠ ext → c.2 < n := by
  constructor
  · rintro ⟨i, hi, hpositive, habove⟩
    refine ⟨_, mem_ratings.mpr ⟨i, hi, rfl⟩, hpositive, fun c hc hne => ?_⟩
    obtain ⟨j, hj, hrating⟩ := mem_ratings.mp hc
    exact hrating ▸ habove _ hj hne
  · rintro ⟨n, hn, hpositive, habove⟩
    obtain ⟨i, hi, rfl⟩ := mem_ratings.mp hn
    exact ⟨i, hi, hpositive, fun c hc hne =>
      habove (c.1, rating c.2 t name) (mem_ratings.mpr ⟨c.2, hc, rfl⟩) hne⟩

lemma IsReordered.wins_iff {candidates' : List (String × Indicator)}
    (h : IsReordered candidates candidates') :
    Wins candidates' t name ext ↔ Wins candidates t name ext := by
  simp only [ContentType.wins_iff, (h.ratings_perm t name).mem_iff]

lemma IsReordered.keys_perm {candidates' : List (String × Indicator)}
    (h : IsReordered candidates candidates') :
    (candidates.map (·.1)).Perm (candidates'.map (·.1)) := by
  rw [← map_fst_ratings candidates [] [], ← map_fst_ratings candidates' [] []]
  exact (h.ratings_perm [] []).map _

lemma IsChosen.of_isReordered (hchosen : IsChosen f' t name ext)
    (hdefault : f'.smartDefault = f.smartDefault)
    (h : IsReordered f.smartIndicators f'.smartIndicators) : IsChosen f t name ext := by
  rcases hchosen with hwins | hno
  · exact .winner (h.wins_iff.mp hwins)
  · exact hdefault ▸ .default fun ext hwins => hno ext (h.wins_iff.mpr hwins)

lemma ofText_of_isReordered (hsome : f.smartIndicators ≠ [])
    (hkeys : (f.smartIndicators.map (·.1)).Nodup) (hdefault : f'.smartDefault = f.smartDefault)
    (h : IsReordered f.smartIndicators f'.smartIndicators) (t : Text) (path : String) :
    ofText f' t path = ofText f t path := by
  have hperm := h.keys_perm
  have hsome' : f'.smartIndicators ≠ [] := by
    intro hnil
    rw [hnil] at hperm
    exact hsome (List.map_eq_nil_iff.mp hperm.eq_nil)
  exact ((isChosen_ofText hsome' (hperm.nodup_iff.mp hkeys)).of_isReordered hdefault h).unique
    (isChosen_ofText hsome hkeys)

/-! ### The type of a file -/

/-- The path is that of a file with this name, in some folder or in none. -/
def IsBaseName (path name : String) : Prop :=
  '/' ∉ name.toList ∧ (path = name ∨ ∃ folder, path = folder ++ "/" ++ name)

lemma baseName_eq {name : String} (h : IsBaseName path name) :
    baseName path = Text.ofString name := by
  obtain ⟨hslash, hpath⟩ := h
  have hall : ∀ c ∈ name.toList.reverse, (c != '/') = true := fun c hc => by
    simpa using fun heq : c = '/' => hslash (List.mem_reverse.mp (heq ▸ hc))
  rw [baseName, Text.ofString]
  rcases hpath with rfl | ⟨folder, rfl⟩
  · rw [List.takeWhile_eq_self_iff.mpr hall, List.reverse_reverse]
  · have htoList : (folder ++ "/" ++ name).toList = folder.toList ++ '/' :: name.toList := by
      simp
    rw [htoList, List.reverse_append, List.reverse_cons, List.append_assoc,
      List.takeWhile_append_of_pos hall]
    simp

/-- **The only best candidate wins, whatever the order**: with indicators configured, a file that is
not binary counts under the extension of the candidate that something speaks for, and more than
for every other one, and under the default one if there is no such candidate. -/
theorem classify_chooses {name : String} (hsome : f.smartIndicators ≠ [])
    (hkeys : (f.smartIndicators.map (·.1)).Nodup) {bs : Bytes} (hbinary : isBinary bs = false)
    (hname : IsBaseName path name) :
    (∃ ext, classify f bs path = some ext ∧
      IsChosen f (Utf8.decodeLossy bs) (Text.ofString name) ext) ∧
    (∀ t, Utf8.encode t = some bs → ∃ ext, classifyText f t path = some ext ∧
      IsChosen f t (Text.ofString name) ext) ∧
    ∀ f' : Settings.Files, f'.smartDefault = f.smartDefault →
      IsReordered f.smartIndicators f'.smartIndicators →
      classify f' bs path = classify f bs path ∧
        ∀ t, Utf8.encode t = some bs → classifyText f' t path = classifyText f t path := by
  have hbytes : ∀ f, classify f bs path = some (ofText f (Utf8.decodeLossy bs) path) := fun f => by
    rw [classify, hbinary]
    rfl
  have htext : ∀ f t, Utf8.encode t = some bs →
      classifyText f t path = some (ofText f t path) := fun f t ht => by
    rw [classifyText, ht, Option.any_some, hbinary]
    rfl
  rw [← baseName_eq hname]
  refine ⟨⟨_, hbytes f, isChosen_ofText hsome hkeys⟩,
    fun t ht => ⟨_, htext f t ht, isChosen_ofText hsome hkeys⟩, fun f' hdefault h => ⟨?_, ?_⟩⟩
  · rw [hbytes, hbytes, ofText_of_isReordered hsome hkeys hdefault h]
  · intro t ht
    rw [htext f' t ht, htext f t ht, ofText_of_isReordered hsome hkeys hdefault h]

/-- Two candidates, one of them the default, with an empty part and a repeated one. -/
def ruled : Settings.Files :=
  { Settings.Files.default with
    smartIndicators := [(".tf", ⟨["resource", "", "="], []⟩), (".md", ⟨["#", "#"], ["readme"]⟩)]
    smartDefault := ".tf" }

/-- The bytes of `# a = b`. -/
def note : Bytes := [0x23, 0x20, 0x61, 0x20, 0x3D, 0x20, 0x62, 0x0A]

/-- A part that is listed twice counts twice, an empty one does not count. -/
theorem ruled_chooses :
    ruled.smartIndicators ≠ [] ∧ (ruled.smartIndicators.map (·.1)).Nodup ∧
      isBinary note = false ∧ IsBaseName "docs/a.tmpl" "a.tmpl" ∧
      classify ruled note "docs/a.tmpl" = some ".md" := by
  have hsome : ruled.smartIndicators ≠ [] := by decide
  have hkeys : (ruled.smartIndicators.map (·.1)).Nodup := by decide
  have hbinary : isBinary note = false := by decide
  have hname : IsBaseName "docs/a.tmpl" "a.tmpl" := ⟨by decide, .inr ⟨"docs", by decide⟩⟩
  obtain ⟨⟨ext, hext, hchosen⟩, -, -⟩ := classify_chooses hsome hkeys hbinary hname
  have hwins : Wins ruled.smartIndicators (Utf8.decodeLossy note) (Text.ofString "a.tmpl") ".md" :=
    ⟨⟨["#", "#"], ["readme"]⟩, by decide, by decide, by decide⟩
  exact ⟨hsome, hkeys, hbinary, hname, hchosen.unique (.winner hwins) ▸ hext⟩

end Letterhead.ContentType
