import Letterhead.Settings.Load
import Letterhead.Proofs.Run.Fate

/-!
When a configuration file gives settings.

A file gives settings if it can be read, its bytes are well-formed text, the text is a document with
a value, the value is nothing or a mapping, and its entries are valid. Loading a file does this, and
two things besides. A value that is void but no mapping (an empty list or text, zero, a switch that
is off) counts as nothing. And bytes that are no text, or a value that cannot be made, are a fault
that is not reported as one of the configuration.
-/

namespace Letterhead

namespace Settings

variable {thisYear : Int} {t : Tree} {path : Path} {bs : Bytes} {text : Text} {d : Datum}
  {es : Entries} {s : Settings}

/-! ### The bytes of a configuration file -/

/-- The bytes are well-formed text of a document with this value. -/
def Holds (bs : Bytes) (d : Datum) : Prop :=
  ∃ text, Utf8.decode? bs = some text ∧ Yaml.read text = .ok d

/-- The entries of a value that may be a configuration: nothing has none. -/
def entries? : Datum → Option Entries
  | .null => some []
  | .mapping es => some es
  | _ => none

/-- The bytes are a configuration, which gives these settings. -/
def IsConfig (thisYear : Int) (bs : Bytes) (s : Settings) : Prop :=
  ∃ d es, Holds bs d ∧ entries? d = some es ∧ ofDatum thisYear (.mapping es) = .ok s

/-- The value in the bytes is void, but neither nothing nor a mapping. -/
def IsHollow (bs : Bytes) : Prop :=
  ∃ d, Holds bs d ∧ d.isVoid = true ∧ entries? d = none

/-- The bytes are no text, or a value in them cannot be made. -/
def Escapes (bs : Bytes) : Prop :=
  Utf8.decode? bs = none ∨
    ∃ text f, Utf8.decode? bs = some text ∧ Yaml.read text = .error f ∧ f ≠ .malformed

lemma Holds.unique {d' : Datum} (h : Holds bs d) (h' : Holds bs d') : d = d' := by
  obtain ⟨text, htext, hd⟩ := h
  obtain ⟨text', htext', hd'⟩ := h'
  obtain rfl := Option.some.inj (htext.symm.trans htext')
  exact Except.ok.inj (hd.symm.trans hd')

lemma isConfig_iff_of_holds (h : Holds bs d) :
    IsConfig thisYear bs s ↔
      ∃ es, entries? d = some es ∧ ofDatum thisYear (.mapping es) = .ok s := by
  refine ⟨fun ⟨d', es, hd', hes⟩ => ?_, fun ⟨es, hes⟩ => ⟨d, es, h, hes⟩⟩
  obtain rfl := h.unique hd'
  exact ⟨es, hes⟩

lemma isHollow_iff_of_holds (h : Holds bs d) :
    IsHollow bs ↔ d.isVoid = true ∧ entries? d = none := by
  refine ⟨fun ⟨d', hd', hvoid⟩ => ?_, fun hvoid => ⟨d, h, hvoid⟩⟩
  obtain rfl := h.unique hd'
  exact hvoid

lemma IsHollow.not_isConfig (h : IsHollow bs) : ¬ IsConfig thisYear bs s := by
  obtain ⟨d, hd, -, hnone⟩ := h
  rw [isConfig_iff_of_holds hd]
  rintro ⟨es, hes, -⟩
  cases hnone.symm.trans hes

lemma ofDatum_nil (thisYear : Int) : ofDatum thisYear (.mapping []) = .ok (.default thisYear) := rfl

lemma eq_nil_of_isVoid (h : entries? d = some es) (hvoid : d.isVoid = true) : es = [] := by
  unfold entries? at h
  split at h
  · cases h
    rfl
  · cases h
    exact List.isEmpty_iff.mp hvoid
  · cases h

/-! ### Loading -/

lemma ofBytes_of_decode?_eq_none (h : Utf8.decode? bs = none) :
    ofBytes thisYear bs = .error .notUtf8 := by
  unfold ofBytes
  rw [h]
  rfl

lemma ofBytes_of_read_eq_error {f : Yaml.Fault} (htext : Utf8.decode? bs = some text)
    (h : Yaml.read text = .error f) : ofBytes thisYear bs = .error (.notYaml f) := by
  unfold ofBytes
  rw [htext]
  simp only [h]
  rfl

lemma ofBytes_of_holds (h : Holds bs d) :
    ofBytes thisYear bs =
      if d.isVoid then .ok (.default thisYear)
      else
        match entries? d with
        | some es => (ofDatum thisYear (.mapping es)).mapError .invalid
        | none => .error .notMapping := by
  obtain ⟨text, htext, hd⟩ := h
  unfold ofBytes
  rw [htext]
  simp only [hd, mapError_ok, bind, Except.bind]
  cases hvoid : d.isVoid with
  | true => rfl
  | false =>
    cases d with
    | null => cases hvoid
    | _ => rfl

lemma ofBytes_cases (thisYear : Int) (bs : Bytes) :
    Utf8.decode? bs = none ∧ ofBytes thisYear bs = .error .notUtf8 ∨
      (∃ text f, Utf8.decode? bs = some text ∧ Yaml.read text = .error f ∧
        ofBytes thisYear bs = .error (.notYaml f)) ∨
      ∃ d, Holds bs d := by
  cases htext : Utf8.decode? bs with
  | none => exact .inl ⟨rfl, ofBytes_of_decode?_eq_none htext⟩
  | some text =>
    cases hd : Yaml.read text with
    | error f => exact .inr (.inl ⟨text, f, rfl, hd, ofBytes_of_read_eq_error htext hd⟩)
    | ok d => exact .inr (.inr ⟨d, text, htext, hd⟩)

/-- **The settings in bytes** are those of the configuration that the bytes are, or the default ones
if their value is void and no configuration. -/
lemma ofBytes_eq_ok_iff :
    ofBytes thisYear bs = .ok s ↔
      IsConfig thisYear bs s ∨ IsHollow bs ∧ s = .default thisYear := by
  rcases ofBytes_cases thisYear bs with ⟨hnone, hfault⟩ | ⟨text, f, htext, hf, hfault⟩ | ⟨d, hd⟩
  · simp [IsConfig, IsHollow, Holds, hnone, hfault]
  · simp [IsConfig, IsHollow, Holds, htext, hf, hfault]
  rw [ofBytes_of_holds hd, isConfig_iff_of_holds hd, isHollow_iff_of_holds hd]
  cases hes : entries? d with
  | none => cases d.isVoid <;> simp [eq_comm]
  | some es =>
    cases hvoid : d.isVoid with
    | true =>
      obtain rfl := eq_nil_of_isVoid hes hvoid
      simp [ofDatum_nil]
    | false => simp [mapError_eq_ok_iff]

lemma message?_eq_none_iff {e : LoadError} :
    e.message? = none ↔ e.fault = .notUtf8 ∨ ∃ f, e.fault = .notYaml f ∧ f ≠ .malformed := by
  obtain ⟨path, _ | _ | f | _ | _⟩ := e
  · simp [LoadError.message?]
  · simp [LoadError.message?]
  · cases f <;> simp [LoadError.message?]
  · simp [LoadError.message?]
  · simp [LoadError.message?]

/-- **A fault in bytes has no message** just if they are no text, or a value in them cannot be
made. -/
lemma ofBytes_escapes_iff (thisYear : Int) (path : Path) :
    (∃ f, ofBytes thisYear bs = .error f ∧ LoadError.message? ⟨path, f⟩ = none) ↔ Escapes bs := by
  simp only [message?_eq_none_iff]
  rcases ofBytes_cases thisYear bs with ⟨hnone, hfault⟩ | ⟨text, f, htext, hf, hfault⟩ | ⟨d, hd⟩
  · simp [Escapes, hnone, hfault]
  · simp [Escapes, htext, hf, hfault]
  · have hno : ¬ Escapes bs := by
      obtain ⟨text, htext, hread⟩ := hd
      simp [Escapes, htext, hread]
    refine iff_of_false (fun ⟨f, hf, hsilent⟩ => ?_) hno
    rw [ofBytes_of_holds hd] at hf
    split at hf
    · cases hf
    split at hf
    · obtain ⟨problems, -, rfl⟩ := mapError_eq_error_iff.mp hf
      simp at hsilent
    · cases hf
      simp at hsilent

lemma load_eq (thisYear : Int) (t : Tree) (path : Path) :
    load thisYear t path =
      match t.read path.toString with
      | .error e => .error ⟨path, .unreadable e⟩
      | .ok bs => (ofBytes thisYear bs).mapError (⟨path, ·⟩) := by
  unfold load
  cases t.read path.toString <;> rfl

/-- Loading a file has a message for every fault, and gives the settings of a configuration, and no
others. -/
structure LoadsAsSaid (thisYear : Int) (t : Tree) (path : Path) : Prop where
  reported : ∀ e, load thisYear t path = .error e → e.message? ≠ none
  settings : ∀ s, load thisYear t path = .ok s ↔
    ∃ bs, t.read path.toString = .ok bs ∧ IsConfig thisYear bs s

lemma load_eq_ok_iff :
    load thisYear t path = .ok s ↔ ∃ bs, t.read path.toString = .ok bs ∧
      (IsConfig thisYear bs s ∨ IsHollow bs ∧ s = .default thisYear) := by
  rw [load_eq]
  cases t.read path.toString with
  | error e => simp
  | ok bs => simp [mapError_eq_ok_iff, ofBytes_eq_ok_iff]

lemma load_escapes_iff :
    (∃ e, load thisYear t path = .error e ∧ e.message? = none) ↔
      ∃ bs, t.read path.toString = .ok bs ∧ Escapes bs := by
  rw [load_eq]
  cases t.read path.toString with
  | error e => simp [message?_eq_none_iff]
  | ok bs => simp [mapError_eq_error_iff, ← ofBytes_escapes_iff thisYear path]

lemma not_loadsAsSaid_of_isHollow (hread : t.read path.toString = .ok bs) (h : IsHollow bs) :
    ¬ LoadsAsSaid thisYear t path := by
  intro hsaid
  obtain ⟨bs', hread', hconfig⟩ :=
    (hsaid.settings (.default thisYear)).mp (load_eq_ok_iff.mpr ⟨bs, hread, .inr ⟨h, rfl⟩⟩)
  obtain rfl := Except.ok.inj (hread.symm.trans hread')
  exact h.not_isConfig hconfig

lemma not_loadsAsSaid_of_escapes (hread : t.read path.toString = .ok bs) (h : Escapes bs) :
    ¬ LoadsAsSaid thisYear t path := by
  intro hsaid
  obtain ⟨e, he, hsilent⟩ := load_escapes_iff.mpr ⟨bs, hread, h⟩
  exact hsaid.reported e he hsilent

/-- A folder with a configuration file. -/
def configFolder (bs : Bytes) : Tree := .ofFolder [("c.yaml", .file bs 0o644)]

def configFile : Path := .ofString "c.yaml"

lemma read_configFolder (bs : Bytes) : (configFolder bs).read configFile.toString = .ok bs := by
  have ha : Tree.IsAtTop configFile.toString "c.yaml" := by decide
  exact ha.read_of_file rfl rfl

end Settings

end Letterhead
