import Letterhead.Proofs.ContentType.Change
import Letterhead.Proofs.Header.Comment
import Letterhead.Proofs.Header.UsualStyle

/-!
A line of a header bears no mark of a language if its text bears none.

A comment style puts something before and behind the text. Nothing of that is the start or the end
of a mark, but for the quote behind a text in YAML, which may end a mark of Terraform. What the
style does bring in is a heading, where comments start with a hash.
-/

namespace Letterhead

namespace ContentType

open Text

/-- No mark of a language stands in the text, nor does one when it is quoted. -/
structure IsUnmarked (t : Text) : Prop where
  terraform : bearsTerraform (t ++ ofChars ['"']) = false
  fence : hasPart "\x60\x60\x60" t = false
  link : hasLink t = false
  rule : hasPart "---" t = false
  colon : ∀ c ∈ t.getLast?, c ≠ CodePoint.ofChar ':'

instance (t : Text) : Decidable (IsUnmarked t) :=
  decidable_of_iff
    (bearsTerraform (t ++ ofChars ['"']) = false ∧ hasPart "\x60\x60\x60" t = false ∧
      hasLink t = false ∧ hasPart "---" t = false ∧ ∀ c ∈ t.getLast?, c ≠ CodePoint.ofChar ':')
    ⟨fun ⟨h₁, h₂, h₃, h₄, h₅⟩ => ⟨h₁, h₂, h₃, h₄, h₅⟩,
      fun h => ⟨h.terraform, h.fence, h.link, h.rule, h.colon⟩⟩

/-! ### Links -/

/-- A stretch does not end in what has no mark, so it is read alike without that. -/
lemma afterStretch?_append {mark : Char} {post : Text} (hpost : ∀ c ∈ post, c.is mark = false)
    (t : Text) : afterStretch? mark (t ++ post) = (afterStretch? mark t).map (· ++ post) := by
  set inside : CodePoint → Bool := fun c => !c.is mark && !c.is '\n' with hinside
  by_cases hall : ∀ c ∈ t, inside c = true
  · have htake : t.takeWhile inside = t := List.takeWhile_eq_self_iff.mpr hall
    have hnone : afterStretch? mark t = none := by
      simp only [afterStretch?, ← hinside, htake, List.drop_length]
    have hrest : ∀ c ∈ (post.drop (post.takeWhile inside).length).head?, c.is mark = false :=
      fun c hc => hpost c (List.mem_of_mem_drop (List.mem_of_mem_head? hc))
    have hdrop : (t ++ post).drop ((t ++ post).takeWhile inside).length =
        post.drop (post.takeWhile inside).length := by
      rw [List.takeWhile_append_of_pos hall, List.length_append, List.drop_append]
      simp
    rw [hnone, Option.map_none]
    simp only [afterStretch?, ← hinside, hdrop]
    rcases hpostDrop : post.drop (post.takeWhile inside).length with _ | ⟨c, rest⟩
    · rfl
    · rw [hpostDrop] at hrest
      dsimp only
      rw [hrest c rfl, Bool.and_false]
      rfl
  · have hlen : (t.takeWhile inside).length < t.length := by
      refine lt_of_le_of_ne (List.takeWhile_prefix _).length_le fun he => hall ?_
      exact List.takeWhile_eq_self_iff.mp ((List.takeWhile_prefix inside).eq_of_length he)
    have htake : (t ++ post).takeWhile inside = t.takeWhile inside := by
      rw [List.takeWhile_append, if_neg (Nat.ne_of_lt hlen)]
    simp only [afterStretch?, ← hinside, htake, List.drop_append_of_le_length (Nat.le_of_lt hlen)]
    obtain ⟨c, rest, hdrop⟩ : ∃ c rest, t.drop (t.takeWhile inside).length = c :: rest :=
      List.exists_cons_of_ne_nil (by simpa using hlen)
    rw [hdrop]
    dsimp only [List.cons_append]
    split <;> rfl

lemma isLink_append {post : Text} (hsquare : ∀ c ∈ post, c.is ']' = false)
    (hround : ∀ c ∈ post, c.is ')' = false) (hhead : dropHead? "(" post = none) {t : Text}
    (hne : t ≠ []) : isLink (t ++ post) = isLink t := by
  have hparen : ∀ r, dropHead? "(" (r ++ post) = (dropHead? "(" r).map (· ++ post) := by
    rintro (_ | ⟨c, r⟩)
    · exact hhead
    · by_cases hc : CodePoint.ofChar '(' = c
      · simp [dropHead?, ofString, ofChars, hc]
      · simp [dropHead?, ofString, ofChars, hc]
  rcases t with _ | ⟨c, t⟩
  · exact absurd rfl hne
  · rw [List.cons_append, isLink, isLink, afterStretch?_append hsquare]
    cases afterStretch? ']' t with
    | none => rfl
    | some r =>
      rw [Option.map_some, Option.bind_some, Option.bind_some, hparen]
      cases dropHead? "(" r with
      | none => rfl
      | some r =>
        rw [Option.map_some, Option.bind_some, Option.bind_some, afterStretch?_append hround,
          Option.isSome_map]

lemma hasLink_append {post : Text} (hopen : ∀ c ∈ post, c.is '[' = false)
    (hsquare : ∀ c ∈ post, c.is ']' = false) (hround : ∀ c ∈ post, c.is ')' = false)
    (hhead : dropHead? "(" post = none) (t : Text) : hasLink (t ++ post) = hasLink t := by
  have hnone : ∀ {u : Text}, (∀ c ∈ u, c.is '[' = false) → hasLink u = false := by
    intro u hu
    induction u with
    | nil => rfl
    | cons c u ih =>
      obtain ⟨hc, hu⟩ := List.forall_mem_cons.mp hu
      rw [hasLink, ih hu, isLink, hc]
      rfl
  induction t with
  | nil => exact hnone hopen
  | cons c t ih =>
    have hlink := isLink_append hsquare hround hhead (List.cons_ne_nil c t)
    rw [List.cons_append] at hlink ⊢
    rw [hasLink, hasLink, hlink, ih]

lemma hasLink_append_left {pre : Text} (hopen : ∀ c ∈ pre, c.is '[' = false) (t : Text) :
    hasLink (pre ++ t) = hasLink t := by
  induction pre with
  | nil => rfl
  | cons c pre ih =>
    obtain ⟨hc, hpre⟩ := List.forall_mem_cons.mp hopen
    rw [List.cons_append, hasLink, ih hpre, isLink, hc]
    rfl

/-! ### Lines of a header -/

/-- What a usual style puts before and behind a text. -/
def frames : List (Text × Text) :=
  [("# ", ""), ("# \"", "\""), ("<!-- ", " -->"), ("// ", "")]

lemma exists_frame (ext : String) (t : Text) :
    ∃ f ∈ frames, (CommentStyle.usual ext).wrap ext t = f.1 ++ (t ++ f.2) := by
  unfold CommentStyle.usual
  split
  · unfold CommentStyle.wrap
    dsimp only
    split
    · exact ⟨("# \"", "\""), by simp [frames], by simp [ofString, ofChars]⟩
    · exact ⟨("# ", ""), by simp [frames], by simp [ofString, ofChars]⟩
  · next hhash =>
    split
    · exact ⟨("<!-- ", " -->"), by simp [frames], by
        simp [CommentStyle.wrap, CommentStyle.htmlOpen, CommentStyle.htmlClose, ofString, ofChars]⟩
    · have hyaml : CommentStyle.isYaml ext = false := by
        simp only [List.contains_cons, List.contains_nil, Bool.or_eq_true, not_or,
          Bool.not_eq_true] at hhash
        simp [CommentStyle.isYaml, hhash]
      exact ⟨("// ", ""), by simp [frames], by
        simp [CommentStyle.wrap, hyaml, ofString, ofChars]⟩

/-- What may stand behind a line, to end it or not. -/
def ends : List Text := ["", "\r", "\n", "\r\n"]

section Framed

variable {f : Text × Text} (hf : f ∈ frames) {t : Text} (ht : IsUnmarked t) {v : Text}
  (hv : v ∈ ends)

include hf ht hv

lemma hasPart_fence_framed : hasPart "\x60\x60\x60" (f.1 ++ (t ++ (f.2 ++ v))) = false := by
  have hapart : ∀ f ∈ frames, ∀ v ∈ ends, IsApart "\x60\x60\x60" f.1 (f.2 ++ v) := by decide
  exact hasPart_eq_false_of_isApart (hapart f hf v hv) ht.fence

lemma hasPart_rule_framed : hasPart "---" (f.1 ++ (t ++ (f.2 ++ v))) = false := by
  have hapart : ∀ f ∈ frames, ∀ v ∈ ends, IsApart "---" f.1 (f.2 ++ v) := by decide
  exact hasPart_eq_false_of_isApart (hapart f hf v hv) ht.rule

lemma hasLink_framed : hasLink (f.1 ++ (t ++ (f.2 ++ v))) = false := by
  have hpre : ∀ f ∈ frames, ∀ c ∈ f.1, c.is '[' = false := by decide
  have hpost : ∀ f ∈ frames, ∀ v ∈ ends, (∀ c ∈ f.2 ++ v, c.is '[' = false) ∧
      (∀ c ∈ f.2 ++ v, c.is ']' = false) ∧ (∀ c ∈ f.2 ++ v, c.is ')' = false) ∧
      dropHead? "(" (f.2 ++ v) = none := by
    decide
  obtain ⟨hopen, hsquare, hround, hhead⟩ := hpost f hf v hv
  rw [hasLink_append_left (hpre f hf), hasLink_append hopen hsquare hround hhead, ht.link]

/-- A quote behind the text may end a mark, and what else stands around the text may not. -/
lemma bearsTerraform_framed : bearsTerraform (f.1 ++ (t ++ (f.2 ++ v))) = false := by
  have hapart : ∀ mark ∈ terraformMarks, ∀ f ∈ frames, ∀ v ∈ ends,
      IsApart mark f.1 (f.2 ++ v) ∨ f.2 = ofChars ['"'] ∧ IsApart mark f.1 v := by
    decide
  rw [bearsTerraform, List.any_eq_false]
  intro mark hmark
  have hquoted : hasPart mark (t ++ ofChars ['"']) = false := by
    simpa using List.any_eq_false.mp ht.terraform mark hmark
  rw [Bool.not_eq_true]
  rcases hapart mark hmark f hf v hv with h | ⟨hquote, h⟩
  · refine hasPart_eq_false_of_isApart h ?_
    rw [Bool.eq_false_iff, ne_eq, hasPart_iff] at hquoted ⊢
    exact fun hin => hquoted (hin.trans (List.prefix_append _ _).isInfix)
  · rw [hquote, ← List.append_assoc t]
    exact hasPart_eq_false_of_isApart h hquoted

lemma hasPart_colon_framed (hline : CodePoint.ofChar '\n' ∉ t) :
    hasPart ":\n" (f.1 ++ (t ++ (f.2 ++ v))) = false := by
  have hapart : ∀ f ∈ frames, ∀ v ∈ ends, IsApart ":\n" f.1 (f.2 ++ v) ∨
      f.2 ++ v = ofChars ['\n'] ∧ IsApart ":\n" f.1 [] := by
    decide
  have hin : ¬ (":\n" : Text) <:+: t := fun h => hline (h.subset (by decide))
  rcases hapart f hf v hv with h | ⟨hend, h⟩
  · refine hasPart_eq_false_of_isApart h ?_
    rwa [Bool.eq_false_iff, ne_eq, hasPart_iff]
  · rw [hend, ← List.append_nil (t ++ ofChars ['\n'])]
    refine hasPart_eq_false_of_isApart h ?_
    rw [Bool.eq_false_iff, ne_eq, hasPart_iff]
    intro h
    rcases List.infix_concat_iff.mp h with h | h
    · -- the last character of the text would be the colon
      have hcolon : ofChars [':'] <:+ t := by
        rcases List.suffix_concat_iff.mp h with h | ⟨w, h, hw⟩
        · exact absurd h (by decide)
        · have h : ofChars [':'] ++ ofChars ['\n'] = w ++ [CodePoint.ofChar '\n'] := h
          rwa [List.append_cancel_right h]
      obtain ⟨u, rfl⟩ := hcolon
      exact ht.colon _ (by simp [ofChars]) rfl
    · exact hin h

end Framed

lemma anyLineStart_append_end {test : Text → Bool} (hnil : test [] = false) {l v : Text}
    (hl : CodePoint.ofChar '\n' ∉ l) (hv : v ∈ ends) :
    anyLineStart test (l ++ v) = test (l ++ v) := by
  have hends : ∀ v ∈ ends, anyLineStart.anyLaterLineStart test v = false := by
    have hnewline : anyLineStart.anyLaterLineStart test (ofChars ['\n']) = false := by
      change ((true && test []) || false) = false
      rw [hnil]
      rfl
    rintro v hv
    simp only [ends, List.mem_cons, List.not_mem_nil, or_false] at hv
    rcases hv with rfl | rfl | rfl | rfl
    · rfl
    · rfl
    · exact hnewline
    · exact hnewline
  rw [anyLineStart, anyLaterLineStart_of_not_mem test hl, hends v hv, Bool.or_false]

/-- **A line of a header bears no mark** if its text bears none, whatever it is ended with. It looks
like a heading where comments start with a hash. -/
theorem isPlain_wrap {ext : String} {t v : Text} (ht : IsUnmarked t)
    (hline : CodePoint.ofChar '\n' ∉ t) (hv : v ∈ ends)
    (hext : ext ∈ CommentStyle.hashExtensions → ext = ".tf" ∨ ext = ".yaml") :
    IsPlain ext ((CommentStyle.usual ext).wrap ext t ++ v) := by
  obtain ⟨f, hf, hwrap⟩ := exists_frame ext t
  have hnewline : CodePoint.ofChar '\n' ∉ (CommentStyle.usual ext).wrap ext t := by
    have hframes : ∀ f ∈ frames, CodePoint.ofChar '\n' ∉ f.1 ∧ CodePoint.ofChar '\n' ∉ f.2 := by
      decide
    simpa [hwrap, hline] using hframes f hf
  have hsplit : (CommentStyle.usual ext).wrap ext t ++ v = f.1 ++ (t ++ (f.2 ++ v)) := by
    simp [hwrap]
  have hstart := CommentStyle.usualStart_wrap ext t v
  have htests := fun (test : Text → Bool) (hnil : test [] = false) =>
    anyLineStart_append_end hnil hnewline hv
  generalize (CommentStyle.usual ext).wrap ext t ++ v = p at hsplit hstart htests ⊢
  constructor
  case closed => cases hstart <;> rfl
  case go =>
    rw [looksLikeGo, htests _ rfl, htests _ rfl, htests _ rfl, htests _ rfl]
    cases hstart <;> rfl
  case terraform => rw [hsplit, bearsTerraform_framed hf ht hv]
  case markdown =>
    have hsub : isSubheading p = false := by cases hstart <;> rfl
    rw [bearsMarkdown, htests _ rfl, hsub, hsplit, hasPart_fence_framed hf ht hv,
      hasLink_framed hf ht hv]
    rfl
  case key =>
    rw [htests _ (by decide)]
    cases hstart <;> rfl
  case yaml =>
    rw [looksLikeYaml, hsplit, hasPart_rule_framed hf ht hv, hasPart_colon_framed hf ht hv hline]
    rfl
  case heading =>
    rw [htests _ rfl]
    intro h
    cases hstart with
    | hash u hmem => exact hext hmem
    | html u => cases h
    | slash u => cases h

end ContentType

/-- The lines that come in with the header, a blank one among them, whatever they are ended with. -/
def Header.ownLines (h : Header) : List Text :=
  ([] :: h.lines).flatMap fun l => ContentType.ends.map (l ++ ·)

namespace ContentType

open Text

/-- The texts of the header bear no mark, or, where indicators decide, its lines have none of their
parts. -/
structure IsDiscreet (s : Settings) (h : Header) : Prop where
  texts : s.files.smartIndicators = [] → ∀ t, s.IsHeaderText t → IsUnmarked t
  parts : ∀ i ∈ s.files.smartIndicators, ∀ part ∈ i.2.content, part ≠ "" →
    ∀ p ∈ h.ownLines, hasPart part p = false

lemma eq_of_guess_mem_hashExtensions {t name : Text}
    (h : guess t name ∈ CommentStyle.hashExtensions) :
    guess t name = ".tf" ∨ guess t name = ".yaml" := by
  rw [guess_eq, ranked] at h ⊢
  repeat' split at h
  all_goals simp_all [CommentStyle.hashExtensions]

/-- **The lines of a discreet header say nothing** about the type of the file. -/
theorem isMute_of_mem_ownLines {s : Settings} {ext : String} {h : Header}
    (hs : s.files.commentStyles = []) (hr : Header.render s ext = .ok h) (hsingle : h.IsSingleLine)
    (hd : IsDiscreet s h)
    (hext : s.files.smartIndicators = [] → ext ∈ CommentStyle.hashExtensions →
      ext = ".tf" ∨ ext = ".yaml")
    {p : Text} (hp : p ∈ h.ownLines) : IsMute s.files ext p where
  parts i hi part hpart hne := hd.parts i hi part hpart hne p hp
  plain hi := by
    obtain ⟨l, hl, hp⟩ := List.mem_flatMap.mp hp
    obtain ⟨v, hv, rfl⟩ := List.mem_map.mp hp
    rcases List.mem_cons.mp hl with rfl | hl
    · have hblank : ∀ v ∈ ends, opensClause v = false ∧ looksLikeGo v = false ∧
          bearsTerraform v = false ∧ bearsMarkdown v = false ∧
          anyLineStart isFrontMatterKey v = false ∧ looksLikeYaml v = false ∧
          anyLineStart isHeading v = false := by
        decide
      obtain ⟨h₁, h₂, h₃, h₄, h₅, h₆, h₇⟩ := hblank v hv
      exact ⟨h₁, h₂, h₃, h₄, h₅, h₆, fun h => absurd (h₇.symm.trans h) (by decide)⟩
    · obtain ⟨ts, -, hts, hlines⟩ := Settings.lines_of_render hr
      have hline := hsingle.not_mem_lines l hl
      rw [hlines, CommentStyle.ofExtension_of_usual hs, CommentStyle.enclose_usual] at hl
      obtain ⟨t, ht, rfl⟩ := List.mem_map.mp hl
      obtain ⟨f, -, hwrap⟩ := exists_frame ext t
      rw [hwrap] at hline
      have htext : CodePoint.ofChar '\n' ∉ t := fun h => hline (by simp [h])
      exact isPlain_wrap (hd.texts hi t (hts t ht)) htext hv (hext hi)

end ContentType

end Letterhead
