import Mathlib.Data.List.Forall2
import Letterhead.Settings.Validate
import Letterhead.Proofs.Path

/-!
What the data of a configuration have to be so that a value is read from them.

Each way to put checks together is told by its valid results: a section is a mapping whose fields
are read, a field is the value under its name or the default, a list and a mapping have valid parts.
Texts are read from texts and from the bytes of texts.
-/

namespace Letterhead

namespace Settings

namespace Checked

variable {α β : Type}

/-! ### Checks put together -/

@[simp] lemma map_valid (f : α → β) (a : α) : (valid a).map f = valid (f a) := rfl

@[simp] lemma app_valid (f : α → β) (a : α) : (valid f).app (valid a) = valid (f a) := rfl

@[simp] lemma behind_valid (a : α) (key : String) : (valid a).behind key = valid a := rfl

lemma map_eq_valid_iff {c : Checked α} {f : α → β} {b : β} :
    c.map f = valid b ↔ ∃ a, c = valid a ∧ f a = b := by
  cases c <;> simp [map]

lemma app_eq_valid_iff {f : Checked (α → β)} {c : Checked α} {b : β} :
    f.app c = valid b ↔ ∃ g a, f = valid g ∧ c = valid a ∧ g a = b := by
  cases f <;> cases c <;> simp [app]

lemma bind_eq_valid_iff {c : Checked α} {f : α → Checked β} {b : β} :
    c.bind f = valid b ↔ ∃ a, c = valid a ∧ f a = valid b := by
  cases c <;> simp [bind]

lemma behind_eq_valid_iff {c : Checked α} {key : String} {a : α} :
    c.behind key = valid a ↔ c = valid a := by
  cases c <;> simp [behind]

lemma toExcept_eq_ok_iff {c : Checked α} {a : α} : c.toExcept = .ok a ↔ c = valid a := by
  cases c <;> simp [toExcept]

lemma all_eq_valid_iff {cs : List (Checked α)} {as : List α} :
    all cs = valid as ↔ List.Forall₂ (fun c a => c = valid a) cs as := by
  induction cs generalizing as with
  | nil => simp [all, eq_comm]
  | cons c cs ih =>
    rw [all, app_eq_valid_iff, List.forall₂_cons_left_iff]
    simp only [map_eq_valid_iff, ih]
    constructor
    · rintro ⟨_, rest, ⟨a, hc, rfl⟩, hrest, rfl⟩
      exact ⟨a, rest, hc, hrest, rfl⟩
    · rintro ⟨a, rest, hc, hrest, rfl⟩
      exact ⟨_, rest, ⟨a, hc, rfl⟩, hrest, rfl⟩

end Checked

open Checked

variable {α : Type} {d : Datum} {es : Entries} {s : String}

lemma checkMapping_eq_valid_iff {kind : ProblemKind} :
    checkMapping kind d = .valid es ↔ d = .mapping es := by
  cases d <;> simp [checkMapping, problem]

lemma checkSection_eq_valid_iff {read : Entries → Checked α} {a : α} :
    checkSection read d = .valid a ↔ ∃ es, d = .mapping es ∧ read es = .valid a := by
  simp only [checkSection, bind_eq_valid_iff, checkMapping_eq_valid_iff]

lemma field_eq_valid_iff {name : String} {check : Datum → Checked α} {default a : α} :
    field name check default es = .valid a ↔
      (∃ d, Datum.find? name es = some d ∧ check d = .valid a) ∨
        Datum.find? name es = none ∧ a = default := by
  unfold field
  cases Datum.find? name es with
  | none => simp [eq_comm]
  | some d => simp [behind_eq_valid_iff]

/-! ### Texts -/

/-- The text in data: a text, or the bytes of one. -/
inductive Spells : Datum → String → Prop where
  | text (s : String) : Spells (.string s) s
  | bytes {bs : Bytes} {s : String} (h : Utf8.decode? bs = some (Text.ofString s)) :
    Spells (.bytes bs) s

lemma toChar?_eq_some_iff {c : CodePoint} {ch : Char} :
    c.toChar? = some ch ↔ c = CodePoint.ofChar ch := by
  constructor
  · intro h
    by_cases hvalid : c.val.isValidChar
    · rw [CodePoint.toChar?, dif_pos hvalid] at h
      obtain rfl := Option.some.inj h
      rfl
    · rw [CodePoint.toChar?, dif_neg hvalid] at h
      cases h
  · rintro rfl
    exact Path.toChar?_ofChar ch

lemma toChars?_eq_some_iff {t : Text} {cs : List Char} :
    t.toChars? = some cs ↔ t = Text.ofChars cs := by
  induction t generalizing cs with
  | nil => simp [Text.toChars?, Text.ofChars, eq_comm]
  | cons c t ih =>
    have hcons : Text.toChars? (c :: t) =
        c.toChar?.bind fun ch => (Text.toChars? t).bind fun cs => some (ch :: cs) := by
      rw [Text.toChars?, List.mapM_cons]
      rfl
    simp only [hcons, Option.bind_eq_some_iff, toChar?_eq_some_iff, ih, Option.some.injEq]
    constructor
    · rintro ⟨ch, rfl, cs, rfl, rfl⟩
      rfl
    · intro h
      cases cs with
      | nil => cases h
      | cons ch cs =>
        obtain ⟨rfl, rfl⟩ := List.cons.inj h
        exact ⟨ch, rfl, cs, rfl, rfl⟩

lemma toString?_eq_some_iff {t : Text} : t.toString? = some s ↔ t = Text.ofString s := by
  rw [Text.toString?, Option.map_eq_some_iff]
  simp only [toChars?_eq_some_iff]
  constructor
  · rintro ⟨cs, rfl, rfl⟩
    rw [Text.ofString, String.toList_ofList]
  · rintro rfl
    exact ⟨s.toList, rfl, String.ofList_toList⟩

lemma toString?_ofString (s : String) : (Text.ofString s).toString? = some s :=
  toString?_eq_some_iff.mpr rfl

@[simp] lemma ofString_inj {s s' : String} : Text.ofString s = Text.ofString s' ↔ s = s' := by
  refine ⟨fun h => ?_, congrArg Text.ofString⟩
  exact Option.some.inj ((toString?_ofString s).symm.trans (toString?_eq_some_iff.mpr h))

@[simp] lemma checkText_string (s : String) : checkText (.string s) = .valid s := by
  simp only [Datum.string, checkText, toString?_ofString]

lemma checkText_eq_valid_iff : checkText d = .valid s ↔ Spells d s := by
  constructor
  · intro h
    unfold checkText at h
    split at h
    · split at h
      · next t s' hs =>
        cases h
        obtain rfl := toString?_eq_some_iff.mp hs
        exact .text s
      · cases h
    · split at h
      · next bs s' hs =>
        cases h
        obtain ⟨t, ht, hs⟩ := Option.bind_eq_some_iff.mp hs
        exact .bytes (toString?_eq_some_iff.mp hs ▸ ht)
      · cases h
    · cases h
  · rintro (_ | h)
    · exact checkText_string s
    · simp only [checkText, h, Option.bind_some, toString?_ofString]

lemma Spells.unique {s' : String} (h : Spells d s) (h' : Spells d s') : s = s' := by
  have hsame := (checkText_eq_valid_iff.mpr h).symm.trans (checkText_eq_valid_iff.mpr h')
  cases hsame
  rfl

/-! ### Entries with texts as keys -/

lemma find?_fields (key : String) (entries : List (String × Datum)) :
    Datum.find? key (entries.map fun (k, v) => (.string k, v)) = entries.lookup key := by
  induction entries with
  | nil => rfl
  | cons e entries ih =>
    obtain ⟨k, v⟩ := e
    have htext : (Datum.string k).isText key = (key == k) := by
      rw [Bool.eq_iff_iff, beq_iff_eq, Datum.string, Datum.isText, beq_iff_eq, ofString_inj]
      exact eq_comm
    rw [List.map_cons, List.lookup_cons, ← ih, Datum.find?, List.find?_cons, htext]
    cases key == k <;> rfl

lemma checkEntry_eq_valid_iff {check : Datum → Checked α} {e : Datum × Datum} {x : String × α} :
    checkEntry check e = .valid x ↔ Spells e.1 x.1 ∧ check e.2 = .valid x.2 := by
  simp only [checkEntry, app_eq_valid_iff, map_eq_valid_iff, behind_eq_valid_iff,
    checkText_eq_valid_iff]
  constructor
  · rintro ⟨_, v, ⟨k, hk, rfl⟩, hv, rfl⟩
    exact ⟨hk, hv⟩
  · rintro ⟨hk, hv⟩
    exact ⟨_, _, ⟨_, hk, rfl⟩, hv, rfl⟩

lemma checkEntries_eq_valid_iff {check : Datum → Checked α} {found : List (String × α)} :
    checkEntries check d = .valid found ↔
      ∃ es xs, d = .mapping es ∧
        List.Forall₂ (fun e x => Spells e.1 x.1 ∧ check e.2 = .valid x.2) es xs ∧
        collect xs = found := by
  simp only [checkEntries, bind_eq_valid_iff, checkMapping_eq_valid_iff, map_eq_valid_iff,
    all_eq_valid_iff, List.forall₂_map_left_iff, checkEntry_eq_valid_iff]
  constructor
  · rintro ⟨es, rfl, xs, hxs, rfl⟩
    exact ⟨es, xs, rfl, hxs, rfl⟩
  · rintro ⟨es, xs, rfl, hxs, rfl⟩
    exact ⟨es, rfl, xs, hxs, rfl⟩

end Settings

end Letterhead
