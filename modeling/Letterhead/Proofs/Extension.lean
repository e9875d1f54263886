import Mathlib.Data.List.TakeWhile
import Letterhead.Proofs.Selection

/-!
The extension that a path counts under is the longest one that it may count under.

Suffixes of a path that are equally long are the same text. So it makes no difference in which
order the extensions are configured, how often, or which of the two lists is asked first.
-/

namespace Letterhead

lemma eq_of_endsIn {path x y : String} (hx : endsIn path x = true) (hy : endsIn path y = true)
    (hlength : x.length = y.length) : x = y := by
  rw [← String.length_toList, ← String.length_toList] at hlength
  have hsuffix := List.suffix_of_suffix_length_le (endsIn_iff.mp hx) (endsIn_iff.mp hy) hlength.le
  exact String.toList_inj.mp (hsuffix.eq_of_length hlength)

namespace Settings

variable {s : Settings} {path ext : String} {suffixes : List String}

/-! ### The extension behind the last point -/

/-- The path has this extension behind its name: a point, behind which no other point and no slash
follows. In front of it stands a name that is not made of points alone. -/
def EndsInPoint (path ext : String) : Prop :=
  ∃ front c name tail, path.toList = front ++ (c :: name ++ '.' :: tail) ∧
    ext.toList = '.' :: tail ∧ c ≠ '.' ∧ '/' ∉ c :: name ∧ '.' ∉ tail ∧ '/' ∉ tail

/-- What a path counts under where nothing is configured. -/
inductive IsPlainExtension (path : String) : String → Prop where
  | pointed {ext : String} (h : EndsInPoint path ext) : IsPlainExtension path ext
  | bare (h : ∀ ext, ¬ EndsInPoint path ext) : IsPlainExtension path ""

lemma takeWhile_reverse_append {p : Char → Bool} {back : List Char} (front : List Char)
    (h : ∀ c ∈ back, p c = true) : ((front ++ back).reverse.takeWhile p).reverse =
      (front.reverse.takeWhile p).reverse ++ back := by
  rw [List.reverse_append, List.takeWhile_append_of_pos fun c hc => h c (List.mem_reverse.mp hc),
    List.reverse_append, List.reverse_reverse]

lemma afterLastPoint {front tail : List Char} (h : '.' ∉ tail) :
    ((front ++ '.' :: tail).reverse.takeWhile (· != '.')).reverse = tail := by
  rw [List.append_cons, takeWhile_reverse_append _ fun c hc => ?_]
  · simp
  · simpa using fun heq : c = '.' => h (heq ▸ hc)

lemma plainExtension_of_endsInPoint (h : EndsInPoint path ext) : plainExtension path = ext := by
  obtain ⟨front, c, name, tail, hpath, hext, hc, hname, hpoint, hslash⟩ := h
  -- the points in front of the name go, the name itself stays
  obtain ⟨rest, hrest⟩ : ∃ rest, (path.toList.reverse.takeWhile (· != '/')).reverse.dropWhile
      (· == '.') = rest ++ '.' :: tail := by
    rw [hpath, takeWhile_reverse_append _ fun d hd => ?_]
    · rw [List.dropWhile_append]
      split
      · exact ⟨c :: name, by rw [List.cons_append, List.dropWhile_cons_of_neg (by simpa using hc)]⟩
      · exact ⟨_, (List.append_assoc ..).symm⟩
    · have hne : d ≠ '/' := by
        rintro rfl
        rcases List.mem_append.mp hd with hd | hd
        · exact hname hd
        · exact hslash (by simpa using hd)
      simpa using hne
  unfold plainExtension
  rw [hrest, if_pos (by simp), afterLastPoint hpoint, ← String.toList_inj, hext,
    String.toList_ofList]

lemma endsInPoint_plainExtension (h : plainExtension path ≠ "") :
    EndsInPoint path (plainExtension path) := by
  unfold plainExtension at h ⊢
  dsimp only at h ⊢
  set last := (path.toList.reverse.takeWhile (· != '/')).reverse with hlast
  have hpath : (path.toList.reverse.dropWhile (· != '/')).reverse ++ last = path.toList := by
    rw [hlast, ← List.reverse_append, List.takeWhile_append_dropWhile, List.reverse_reverse]
  have hslash : '/' ∉ last := by
    intro hmem
    simpa using List.mem_takeWhile_imp (List.mem_reverse.mp hmem)
  have hpoints := List.takeWhile_append_dropWhile (p := (· == '.')) (l := last)
  split at h
  swap
  · exact absurd rfl h
  next hpoint =>
  rw [if_pos hpoint]
  -- the last point, counted from the end
  obtain ⟨tail, name, heq, htail⟩ := List.eq_append_cons_of_mem
    (List.mem_reverse.mpr (List.contains_iff_mem.mp hpoint))
  rw [List.reverse_eq_iff, List.reverse_append, List.reverse_cons, List.append_assoc,
    List.singleton_append] at heq
  have htail' : '.' ∉ tail.reverse := by simpa using htail
  rw [heq, afterLastPoint htail']
  rw [heq] at hpoints
  rcases hname : name.reverse with _ | ⟨c, name'⟩
  · -- the points in front have gone, so none comes first
    have hhead := List.head?_dropWhile_not (· == '.') last
    rw [heq, hname] at hhead
    simp at hhead
  · have hhead := List.head?_dropWhile_not (· == '.') last
    rw [heq, hname] at hhead
    rw [← hpoints, hname] at hpath hslash
    simp only [List.mem_append, List.mem_cons, not_or] at hslash
    exact ⟨_, c, name', tail.reverse, by rw [← hpath, ← List.append_assoc], String.toList_ofList,
      by simpa using hhead, by simp_all, htail', by simp_all⟩

lemma plainExtension_eq_iff : plainExtension path = ext ↔ IsPlainExtension path ext := by
  constructor
  · rintro rfl
    by_cases h : plainExtension path = ""
    · rw [h]
      refine .bare fun ext hext => ?_
      have hsame := plainExtension_of_endsInPoint hext
      obtain ⟨_, _, _, _, -, hne, -⟩ := hext
      rw [← hsame, h] at hne
      cases hne
    · exact .pointed (endsInPoint_plainExtension h)
  · rintro (h | h)
    · exact plainExtension_of_endsInPoint h
    · by_contra hne
      exact h _ (endsInPoint_plainExtension hne)

example : plainExtension "src/.profile" = "" ∧ plainExtension "src.d/a.tar.gz" = ".gz" := by decide

lemma EndsInPoint.endsIn (h : EndsInPoint path ext) : endsIn path ext = true := by
  obtain ⟨front, c, name, tail, hpath, hext, -⟩ := h
  rw [endsIn_iff, hpath, hext, ← List.append_assoc]
  exact List.suffix_append _ _

lemma IsPlainExtension.endsIn (h : IsPlainExtension path ext) : endsIn path ext = true := by
  rcases h with h | h
  · exact h.endsIn
  · exact endsIn_iff.mpr (List.nil_suffix)

/-! ### The longest suffix -/

/-- The suffix is one that the path has, and not empty. -/
structure IsSuffixAmong (suffixes : List String) (path x : String) : Prop where
  mem : x ∈ suffixes
  ne_empty : x ≠ ""
  endsIn : endsIn path x = true

/-- One suffix more is taken if the path has it and it is longer than the longest one so far. -/
lemma longestSuffix?_concat (suffixes : List String) (x path : String) :
    longestSuffix? (suffixes ++ [x]) path =
      if x != "" && endsIn path x && (longestSuffix? suffixes path).all (·.length < x.length)
      then some x else longestSuffix? suffixes path := by
  rw [longestSuffix?, List.foldl_append]
  rfl

lemma longestSuffix?_spec {c : String} (h : longestSuffix? suffixes path = some c) :
    IsSuffixAmong suffixes path c ∧ ∀ x, IsSuffixAmong suffixes path x → x.length ≤ c.length := by
  induction suffixes using List.reverseRecOn generalizing c with
  | nil => cases h
  | append_singleton suffixes x ih =>
    rw [longestSuffix?_concat] at h
    split at h
    · next hx =>
      obtain rfl := Option.some.inj h
      simp only [Bool.and_eq_true, bne_iff_ne] at hx
      obtain ⟨⟨hne, hends⟩, hlonger⟩ := hx
      refine ⟨⟨by simp, hne, hends⟩, fun y hy => ?_⟩
      rcases List.mem_append.mp hy.mem with hmem | hmem
      · -- the longest one so far is no longer than this one
        have hy' : IsSuffixAmong suffixes path y := ⟨hmem, hy.ne_empty, hy.endsIn⟩
        cases hbest : longestSuffix? suffixes path with
        | none =>
          have hsome := isSome_longestSuffix?_iff.mpr ⟨y, hy'.mem, hy'.ne_empty, hy'.endsIn⟩
          rw [hbest] at hsome
          cases hsome
        | some b =>
          rw [hbest] at hlonger
          have hshort : b.length < x.length := by simpa using hlonger
          exact ((ih hbest).2 y hy').trans hshort.le
      · rw [List.mem_singleton.mp hmem]
    · next hx =>
      obtain ⟨hc, hlongest⟩ := ih h
      refine ⟨⟨List.mem_append_left _ hc.mem, hc.ne_empty, hc.endsIn⟩, fun y hy => ?_⟩
      rcases List.mem_append.mp hy.mem with hmem | hmem
      · exact hlongest y ⟨hmem, hy.ne_empty, hy.endsIn⟩
      · obtain rfl := List.mem_singleton.mp hmem
        simpa [hy.ne_empty, hy.endsIn, h] using hx

lemma not_isSuffixAmong_of_none (h : longestSuffix? suffixes path = none) (x : String) :
    ¬ IsSuffixAmong suffixes path x := by
  intro hx
  have hsome := isSome_longestSuffix?_iff.mpr ⟨x, hx.mem, hx.ne_empty, hx.endsIn⟩
  rw [h] at hsome
  cases hsome

/-! ### The effective extension -/

/-- The path may count under the extension: by its last point, or by an entry of a list. -/
inductive IsExtension (s : Settings) (path : String) : String → Prop where
  | plain {ext : String} (h : IsPlainExtension path ext) : IsExtension s path ext
  | fixed {ext : String} (h : IsSuffixAmong s.files.extensions path ext) : IsExtension s path ext
  | smart {ext : String} (h : IsSuffixAmong s.files.smartExtensions path ext) :
    IsExtension s path ext

lemma IsExtension.endsIn (h : IsExtension s path ext) : endsIn path ext = true := by
  cases h with
  | plain h => exact h.endsIn
  | fixed h => exact h.endsIn
  | smart h => exact h.endsIn

lemma IsExtension.congr {s' : Settings}
    (hfixed : ∀ x, x ∈ s'.files.extensions ↔ x ∈ s.files.extensions)
    (hsmart : ∀ x, x ∈ s'.files.smartExtensions ↔ x ∈ s.files.smartExtensions)
    (h : IsExtension s path ext) : IsExtension s' path ext := by
  cases h with
  | plain h => exact .plain h
  | fixed h => exact .fixed ⟨(hfixed ext).mpr h.mem, h.ne_empty, h.endsIn⟩
  | smart h => exact .smart ⟨(hsmart ext).mpr h.mem, h.ne_empty, h.endsIn⟩

/-- The longest of the extensions; no other one is as long. -/
structure IsLongest (s : Settings) (path ext : String) : Prop where
  mem : IsExtension s path ext
  longest : ∀ other, IsExtension s path other → other ≠ ext → other.length < ext.length

lemma IsLongest.of_length_le (hext : IsExtension s path ext)
    (h : ∀ other, IsExtension s path other → other.length ≤ ext.length) : IsLongest s path ext :=
  ⟨hext, fun other hother hne => lt_of_le_of_ne (h other hother) fun hlength =>
    hne (eq_of_endsIn hother.endsIn hext.endsIn hlength)⟩

lemma IsLongest.length_le {other : String} (h : IsLongest s path ext)
    (hother : IsExtension s path other) : other.length ≤ ext.length := by
  rcases eq_or_ne other ext with rfl | hne
  · exact le_rfl
  · exact (h.longest other hother hne).le

lemma IsLongest.unique {other : String} (h : IsLongest s path ext)
    (hother : IsLongest s path other) : ext = other :=
  eq_of_endsIn h.mem.endsIn hother.mem.endsIn
    (le_antisymm (hother.length_le h.mem) (h.length_le hother.mem))

/-- The extension that counts if the list of those whose content decides is left out. -/
def fixedExtension (s : Settings) (path : String) : String :=
  match longestSuffix? s.files.extensions path with
  | some c => if (plainExtension path).length < c.length then c else plainExtension path
  | none => plainExtension path

lemma effectiveExtension_eq (s : Settings) (path : String) :
    s.effectiveExtension path =
      match longestSuffix? s.files.smartExtensions path with
      | some c =>
        if (s.fixedExtension path).length ≤ c.length then (c, true)
        else (s.fixedExtension path, false)
      | none => (s.fixedExtension path, false) := rfl

lemma fixedExtension_cases (s : Settings) (path : String) :
    IsPlainExtension path (s.fixedExtension path) ∨
      IsSuffixAmong s.files.extensions path (s.fixedExtension path) := by
  unfold fixedExtension
  split
  · next c hc =>
    split
    · exact .inr (longestSuffix?_spec hc).1
    · exact .inl (plainExtension_eq_iff.mp rfl)
  · exact .inl (plainExtension_eq_iff.mp rfl)

lemma length_le_fixedExtension {other : String}
    (h : IsPlainExtension path other ∨ IsSuffixAmong s.files.extensions path other) :
    other.length ≤ (s.fixedExtension path).length := by
  have hplain : IsPlainExtension path other → other = plainExtension path :=
    fun h => (plainExtension_eq_iff.mpr h).symm
  unfold fixedExtension
  split
  · next c hc =>
    have hlongest := (longestSuffix?_spec hc).2
    split
    · next hlt =>
      rcases h with h | h
      · exact hplain h ▸ hlt.le
      · exact hlongest other h
    · next hle =>
      rcases h with h | h
      · rw [hplain h]
      · exact (hlongest other h).trans (not_lt.mp hle)
  · next hnone =>
    rcases h with h | h
    · rw [hplain h]
    · exact absurd h (not_isSuffixAmong_of_none hnone other)

lemma effectiveExtension_cases (s : Settings) (path : String) :
    IsLongest s path (s.effectiveExtension path).1 ∧
      ((s.effectiveExtension path).2 = true ↔
        IsSuffixAmong s.files.smartExtensions path (s.effectiveExtension path).1) := by
  have hfixed : IsExtension s path (s.fixedExtension path) :=
    (fixedExtension_cases s path).elim .plain .fixed
  rw [effectiveExtension_eq]
  split
  · next c hc =>
    obtain ⟨hmem, hlongest⟩ := longestSuffix?_spec hc
    split
    · next hle =>
      refine ⟨.of_length_le (.smart hmem) fun other hother => ?_, iff_of_true rfl hmem⟩
      cases hother with
      | plain h => exact (length_le_fixedExtension (.inl h)).trans hle
      | fixed h => exact (length_le_fixedExtension (.inr h)).trans hle
      | smart h => exact hlongest other h
    · next hlt =>
      refine ⟨.of_length_le hfixed fun other hother => ?_,
        iff_of_false Bool.false_ne_true fun h => hlt (hlongest _ h)⟩
      cases hother with
      | plain h => exact length_le_fixedExtension (.inl h)
      | fixed h => exact length_le_fixedExtension (.inr h)
      | smart h => exact (hlongest other h).trans (not_le.mp hlt).le
  · next hnone =>
    refine ⟨.of_length_le hfixed fun other hother => ?_,
      iff_of_false Bool.false_ne_true (not_isSuffixAmong_of_none hnone _)⟩
    cases hother with
    | plain h => exact length_le_fixedExtension (.inl h)
    | fixed h => exact length_le_fixedExtension (.inr h)
    | smart h => exact absurd h (not_isSuffixAmong_of_none hnone other)

/-- **The longest extension counts**: the one by the last point or an entry of the lists that the
path ends with. Its content decides just if it is an entry of that list. Neither the order nor the
repetition of entries matters, and a file is meant only if some entry is a suffix of its path. -/
theorem effectiveExtension_longest (s : Settings) (path : String) :
    IsLongest s path (s.effectiveExtension path).1 ∧
      ((s.effectiveExtension path).2 = true ↔ (s.effectiveExtension path).1 ≠ "" ∧
        (s.effectiveExtension path).1 ∈ s.files.smartExtensions) ∧
      (∀ s' : Settings, (∀ x, x ∈ s'.files.extensions ↔ x ∈ s.files.extensions) →
        (∀ x, x ∈ s'.files.smartExtensions ↔ x ∈ s.files.smartExtensions) →
        s'.effectiveExtension path = s.effectiveExtension path) ∧
      (s.selects path = .ok true →
        ∃ x ∈ s.files.extensions ++ s.files.smartExtensions, x ≠ "" ∧ endsIn path x = true) := by
  obtain ⟨hlongest, hsmart⟩ := effectiveExtension_cases s path
  refine ⟨hlongest, ?_, fun s' hfixed' hsmart' => ?_, fun hselects => ?_⟩
  · exact hsmart.trans ⟨fun h => ⟨h.ne_empty, h.mem⟩, fun h => ⟨h.2, h.1, hlongest.mem.endsIn⟩⟩
  · obtain ⟨hlongest', hflag'⟩ := effectiveExtension_cases s' path
    have hsame : IsLongest s path (s'.effectiveExtension path).1 :=
      .of_length_le (hlongest'.mem.congr (fun x => (hfixed' x).symm) fun x => (hsmart' x).symm)
        fun other hother => hlongest'.length_le (hother.congr hfixed' hsmart')
    have hext := hsame.unique hlongest
    refine Prod.ext hext (Bool.eq_iff_iff.mpr ?_)
    rw [hflag', hsmart, hext]
    exact ⟨fun h => ⟨(hsmart' _).mp h.mem, h.ne_empty, h.endsIn⟩,
      fun h => ⟨(hsmart' _).mpr h.mem, h.ne_empty, h.endsIn⟩⟩
  · unfold selects at hselects
    split at hselects
    · next hsome => exact isSome_longestSuffix?_iff.mp hsome
    · cases hselects

end Settings

end Letterhead
