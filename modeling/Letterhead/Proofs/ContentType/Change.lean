import Letterhead.Proofs.ContentType.Clause

/-!
When a text counts under the same extension after some of its lines have changed.

Lines that bear no mark change nothing, with one exception: a heading alone is no mark, but it is
one together with a key of a front matter. So a heading that comes in makes a file of YAML with
such a key one of Markdown. It makes nothing of a file of Terraform, whose marks are looked for
before those of Markdown.
-/

namespace Letterhead.ContentType

open Text

/-- The marks of Markdown but for a heading with a front matter. -/
def bearsMarkdown (t : Text) : Bool :=
  anyLineStart isSubheading t || hasPart "\x60\x60\x60" t || hasLink t

def bearsTerraform (t : Text) : Bool := terraformMarks.any (hasPart · t)

/-- The line bears no mark of a language. It may be a heading if the extension is one of a language
that has comments which look so. -/
structure IsPlain (ext : String) (p : Text) : Prop where
  closed : opensClause p = false
  go : looksLikeGo p = false
  terraform : bearsTerraform p = false
  markdown : bearsMarkdown p = false
  key : anyLineStart isFrontMatterKey p = false
  yaml : looksLikeYaml p = false
  heading : anyLineStart isHeading p = true → ext = ".tf" ∨ ext = ".yaml"

instance (ext : String) (p : Text) : Decidable (IsPlain ext p) :=
  decidable_of_iff
    (opensClause p = false ∧ looksLikeGo p = false ∧ bearsTerraform p = false ∧
      bearsMarkdown p = false ∧ anyLineStart isFrontMatterKey p = false ∧
      looksLikeYaml p = false ∧ (anyLineStart isHeading p = true → ext = ".tf" ∨ ext = ".yaml"))
    ⟨fun ⟨h₁, h₂, h₃, h₄, h₅, h₆, h₇⟩ => ⟨h₁, h₂, h₃, h₄, h₅, h₆, h₇⟩,
      fun h => ⟨h.closed, h.go, h.terraform, h.markdown, h.key, h.yaml, h.heading⟩⟩

/-- The line says nothing about the type of a file that counts under the extension: it bears no
mark, or, where indicators decide, none of their parts. -/
structure IsMute (f : Settings.Files) (ext : String) (p : Text) : Prop where
  plain : f.smartIndicators = [] → IsPlain ext p
  parts : ∀ i ∈ f.smartIndicators, ∀ part ∈ i.2.content, part ≠ "" → hasPart part p = false

instance (f : Settings.Files) (ext : String) (p : Text) : Decidable (IsMute f ext p) :=
  decidable_of_iff
    ((f.smartIndicators = [] → IsPlain ext p) ∧
      ∀ i ∈ f.smartIndicators, ∀ part ∈ i.2.content, part ≠ "" → hasPart part p = false)
    ⟨fun ⟨h₁, h₂⟩ => ⟨h₁, h₂⟩, fun h => ⟨h.plain, h.parts⟩⟩

/-! ### The marks in two texts -/

section Marks

variable {ext : String} {t u : Text} (h : ∀ p ∈ changedLines t u, IsPlain ext p)

include h

lemma looksLikeGo_congr (hclosed : ∀ p ∈ pieces t, opensClause p = false) :
    looksLikeGo t = looksLikeGo u := by
  refine eq_of_changedLines (by rfl) (fun l hl hm => splitsAt_looksLikeGo ?_ hl)
    fun p hp => (h p hp).go
  rcases mem_pieces_or_changed hm with ht | hc
  · exact hclosed _ ht
  · exact (h _ hc).closed

lemma bearsTerraform_congr : bearsTerraform t = bearsTerraform u := by
  refine eq_of_changedLines (by decide) (fun l _ _ => splitsAt_any fun mark hmark => ?_)
    fun p hp => (h p hp).terraform
  have hmarks : ∀ mark ∈ terraformMarks, IsInLine mark := by decide
  exact splitsAt_hasPart (hmarks mark hmark) l

lemma bearsMarkdown_congr : bearsMarkdown t = bearsMarkdown u := by
  refine eq_of_changedLines (by decide) (fun l hl _ => ?_) fun p hp => (h p hp).markdown
  exact ((splitsAt_anyLineStart hl (by decide) (isSubheading_append_newline l)).or
    (splitsAt_hasPart (by decide) l)).or (splitsAt_hasLink l)

lemma anyKey_congr : anyLineStart isFrontMatterKey t = anyLineStart isFrontMatterKey u :=
  eq_of_changedLines (by decide)
    (fun l hl _ => splitsAt_anyLineStart hl (by decide) (isFrontMatterKey_append_newline l))
    fun p hp => (h p hp).key

lemma looksLikeYaml_congr : looksLikeYaml t = looksLikeYaml u :=
  eq_of_changedLines (by decide)
    (fun l _ _ => (splitsAt_hasPart (by decide) l).or (splitsAt_hasPart (by decide) l))
    fun p hp => (h p hp).yaml

lemma anyHeading_congr (htf : ext ≠ ".tf") (hyaml : ext ≠ ".yaml") :
    anyLineStart isHeading t = anyLineStart isHeading u := by
  refine eq_of_changedLines (by decide)
    (fun l hl _ => splitsAt_anyLineStart hl (by decide) (isHeading_append_newline l))
    fun p hp => ?_
  by_contra hheading
  exact ((h p hp).heading (by simpa using hheading)).elim htf hyaml

end Marks

/-! ### What is guessed -/

/-- The type by the marks, the first of which decides. -/
def ranked (go terraform markdown heading key yaml named : Bool) : String :=
  if go then ".go"
  else if terraform then ".tf"
  else if markdown || (heading && key) then ".md"
  else if yaml then ".yaml"
  else if named then ".md"
  else ".go"

lemma ranked_eq_iff {go terraform markdown heading heading' key yaml named : Bool}
    (h : ranked go terraform markdown heading key yaml named ≠ ".tf" →
      ranked go terraform markdown heading key yaml named ≠ ".yaml" → heading = heading') :
    ranked go terraform markdown heading' key yaml named =
        ranked go terraform markdown heading key yaml named ↔
      ¬ (ranked go terraform markdown heading key yaml named = ".yaml" ∧ heading' = true ∧
        key = true) := by
  cases go with
  | true => simp [ranked]
  | false =>
    cases terraform with
    | true => simp [ranked]
    | false =>
      cases markdown with
      | true => simp [ranked]
      | false =>
        cases key with
        | false => simp [ranked]
        | true =>
          cases heading <;> cases heading' <;> cases yaml <;> cases named <;> simp_all [ranked]

lemma guess_eq (t name : Text) :
    guess t name = ranked (looksLikeGo t) (looksLikeTerraform t (lowerName name)) (bearsMarkdown t)
      (anyLineStart isHeading t) (anyLineStart isFrontMatterKey t) (looksLikeYaml t)
      (hasPart "markdown" (lowerName name) || hasPart "md" (lowerName name)) :=
  rfl

/-- **What is guessed stays the same**, unless a heading comes into a file of YAML with a key of a
front matter. -/
theorem guess_eq_iff {t u name : Text} (hclosed : ∀ p ∈ pieces t, opensClause p = false)
    (h : ∀ p ∈ changedLines t u, IsPlain (guess t name) p) :
    guess u name = guess t name ↔
      ¬ (guess t name = ".yaml" ∧ anyLineStart isHeading u = true ∧
        anyLineStart isFrontMatterKey t = true) := by
  have htf : looksLikeTerraform u (lowerName name) = looksLikeTerraform t (lowerName name) :=
    congrArg (· || _ || _) (bearsTerraform_congr h).symm
  have hheading := anyHeading_congr h
  rw [guess_eq u, ← looksLikeGo_congr h hclosed, htf, ← bearsMarkdown_congr h, ← anyKey_congr h,
    ← looksLikeYaml_congr h]
  rw [guess_eq t] at hheading ⊢
  exact ranked_eq_iff hheading

/-! ### Indicators -/

lemma winner?_congr {indicators : List (String × Settings.Indicator)} {t u : Text}
    (hin : ∀ i ∈ indicators, ∀ part ∈ i.2.content, IsInLine (ofString part))
    (h : ∀ p ∈ changedLines t u, ∀ i ∈ indicators, ∀ part ∈ i.2.content, part ≠ "" →
      hasPart part p = false) (name : Text) :
    winner? indicators t name = winner? indicators u name := by
  have hhits : ∀ i ∈ indicators, hits i.2.content t = hits i.2.content u := by
    intro i hi
    refine List.countP_congr fun part hpart => ?_
    by_cases hne : part = ""
    · simp [hne]
    · have hne' : ofString part ≠ [] := by
        simpa [ofString, ofChars] using hne
      have hpart' : hasPart part t = hasPart part u :=
        eq_of_changedLines (by simpa [hasPart] using hne')
          (fun l _ _ => splitsAt_hasPart (hin i hi part hpart) l)
          fun p hp => h p hp i hi part hpart hne
      rw [hpart']
  have hscore : ∀ i ∈ indicators, (i.1, score i.2 t name) = (i.1, score i.2 u name) := by
    intro i hi
    simp only [score, hhits i hi]
  unfold winner?
  rw [List.map_congr_left hscore]

/-- **A file whose lines change mutely counts under the same extension**, unless a heading comes
into a file of YAML with a key of a front matter and there are no indicators. -/
theorem ofText_eq_iff {f : Settings.Files} {t u : Text} {path : String}
    (hin : ∀ i ∈ f.smartIndicators, ∀ part ∈ i.2.content, IsInLine (ofString part))
    (hclosed : f.smartIndicators = [] → ∀ p ∈ pieces t, opensClause p = false)
    (h : ∀ p ∈ changedLines t u, IsMute f (ofText f t path) p) :
    ofText f u path = ofText f t path ↔
      ¬ (f.smartIndicators = [] ∧ ofText f t path = ".yaml" ∧ anyLineStart isHeading u = true ∧
        anyLineStart isFrontMatterKey t = true) := by
  cases hi : f.smartIndicators with
  | nil =>
    have hguess : ∀ t, ofText f t path = guess t (baseName path) := fun t => by
      rw [ofText, hi]
      rfl
    rw [hguess] at h
    rw [hguess, hguess, guess_eq_iff (hclosed hi) fun p hp => (h p hp).plain hi]
    simp
  | cons i is =>
    have hwinner := winner?_congr hin (fun p hp => (h p hp).parts) (baseName path)
    have hsame : ofText f u path = ofText f t path := by
      rw [ofText, ofText, hwinner, hi]
      rfl
    simp [hsame]

end Letterhead.ContentType
