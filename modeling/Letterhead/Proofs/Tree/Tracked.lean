import Mathlib.Data.List.Basic
import Mathlib.Tactic.Basic
import Letterhead.Tree.Tracked
import Letterhead.Proofs.Text.Utf8

/-!
The listing of tracked files, and the names that are shown in it.

A name stands in quotes unless all of its characters are printable ASCII, with neither a quote nor a
backslash among them. In quotes it is longer, so it never is the name itself.
-/

namespace Letterhead

/-! ### The bytes of a name -/

lemma loop_toList (bs : ByteArray) (i : Nat) (r : List UInt8) :
    ByteArray.toList.loop bs i r = r.reverse ++ bs.data.toList.drop i := by
  fun_induction ByteArray.toList.loop bs i r with
  | case1 i r hlt ih =>
    have hi : i < bs.data.toList.length := hlt
    have hget : bs.get! i = bs.data.toList[i] := getElem!_pos bs.data i hlt
    rw [ih, List.drop_eq_getElem_cons hi, hget, List.reverse_cons, List.append_assoc]
    rfl
  | case2 i r hge =>
    have hall : bs.data.toList.length ≤ i := Nat.le_of_not_lt hge
    rw [List.drop_eq_nil_of_le hall, List.append_nil]

lemma toList_toUTF8 (name : String) :
    name.toUTF8.toList = name.toList.flatMap String.utf8EncodeChar := by
  have hbytes : name.toUTF8 = (name.toList.flatMap String.utf8EncodeChar).toByteArray :=
    String.utf8Encode_toList.symm
  rw [hbytes, ByteArray.toList, loop_toList, List.toList_data_toByteArray]
  rfl

namespace Project

/-! ### Names in quotes -/

/-- The character is shown as it is. -/
def IsPlainChar (c : Char) : Prop := 32 ≤ c.toNat ∧ c.toNat < 127 ∧ c ≠ '"' ∧ c ≠ '\\'

instance (c : Char) : Decidable (IsPlainChar c) :=
  inferInstanceAs (Decidable (32 ≤ c.toNat ∧ c.toNat < 127 ∧ c ≠ '"' ∧ c ≠ '\\'))

/-- The name is shown as it is. -/
def IsPlainName (name : String) : Prop := ∀ c ∈ name.toList, IsPlainChar c

instance (name : String) : Decidable (IsPlainName name) :=
  List.decidableBAll IsPlainChar name.toList

lemma escape?_eq_none_iff {b : UInt8} :
    escape? b = none ↔ 32 ≤ b.toNat ∧ b.toNat < 127 ∧ b.toNat ≠ 34 ∧ b.toNat ≠ 92 := by
  unfold escape?
  dsimp only
  split
  · next c hc =>
    obtain ⟨front, back, heq, -⟩ := List.lookup_eq_some_iff.mp hc
    have hmem : (b.toNat, c) ∈ front ++ (b.toNat, c) :: back := by simp
    rw [← heq] at hmem
    simp only [List.mem_cons, Prod.mk.injEq, List.not_mem_nil, or_false] at hmem
    exact iff_of_false (by simp) (by omega)
  · next hnone =>
    simp only [List.lookup_eq_none_iff, List.forall_mem_cons, bne_iff_ne] at hnone
    split
    · exact iff_of_false (by simp) (by omega)
    · exact iff_of_true rfl (by omega)

lemma escape?_utf8EncodeChar_iff {c : Char} :
    (∀ b ∈ String.utf8EncodeChar c, escape? b = none) ↔ IsPlainChar c := by
  have hquote : c = '"' ↔ c.toNat = 34 := ⟨by rintro rfl; rfl, fun h => Char.toNat_inj.mp h⟩
  have hslash : c = '\\' ↔ c.toNat = 92 := ⟨by rintro rfl; rfl, fun h => Char.toNat_inj.mp h⟩
  rw [IsPlainChar, Ne, Ne, hquote, hslash]
  by_cases hascii : c.val.toNat ≤ 127
  · have hone : String.utf8EncodeChar c = [UInt8.ofNat c.toNat] := if_pos hascii
    have hbyte : (UInt8.ofNat c.toNat).toNat = c.toNat :=
      Utf8.toNat_ofNat (Nat.lt_of_le_of_lt hascii (by decide))
    rw [hone, List.forall_mem_singleton, escape?_eq_none_iff, hbyte]
  · -- the first byte of a longer sequence is no ASCII
    have hlarge : 127 < c.toNat := Nat.lt_of_not_le hascii
    refine iff_of_false (fun h => ?_) (by omega)
    unfold String.utf8EncodeChar at h
    dsimp only at h
    rw [if_neg hascii] at h
    split_ifs at h
    all_goals
      have hfirst := escape?_eq_none_iff.mp (h _ List.mem_cons_self)
      rw [Utf8.toNat_ofNat (by omega)] at hfirst
      omega

lemma all_escape?_iff {name : String} :
    (name.toUTF8.toList.all fun b => (escape? b).isNone) = true ↔ IsPlainName name := by
  simp only [toList_toUTF8, List.all_flatMap, List.all_eq_true, Option.isNone_iff_eq_none,
    escape?_utf8EncodeChar_iff, IsPlainName]

lemma length_le_length_flatMap {α β : Type} {f : α → List β} (h : ∀ a, f a ≠ []) (l : List α) :
    l.length ≤ (l.flatMap f).length := by
  induction l with
  | nil => simp
  | cons a l ih =>
    have ha := List.length_pos_of_ne_nil (h a)
    rw [List.flatMap_cons, List.length_append, List.length_cons]
    omega

lemma length_lt_quotedName {name : String} (h : ¬ IsPlainName name) :
    name.toList.length < (quotedName name).toList.length := by
  have hshown : ∀ b, (escape? b).getD [Char.ofNat b.toNat] ≠ [] := by
    intro b
    unfold escape?
    dsimp only
    split
    · simp
    · split <;> simp
  have hbytes := length_le_length_flatMap (fun c => String.utf8EncodeChar_ne_nil (c := c))
    name.toList
  rw [← toList_toUTF8] at hbytes
  have hchars := length_le_length_flatMap hshown name.toUTF8.toList
  rw [quotedName, if_neg (mt all_escape?_iff.mp h), String.toList_ofList, List.cons_append,
    List.length_cons, List.length_append]
  omega

/-- **A name is shown as it is** just if its characters are plain. -/
theorem quotedName_eq_self_iff {name : String} : quotedName name = name ↔ IsPlainName name := by
  constructor
  · intro heq
    by_contra hplain
    exact absurd (length_lt_quotedName hplain) (by rw [heq]; exact lt_irrefl _)
  · intro hplain
    rw [quotedName, if_pos (all_escape?_iff.mpr hplain)]

/-! ### The listing -/

lemma trackedAt?_point {p : Project} {tracked : List String} (htracked : p.tracked = some tracked) :
    p.trackedAt? "." = some ((tracked.mergeSort Tree.isBefore).map quotedName) := by
  have hspec : spec? p.tree "." = some "" := by
    have hnames : (Path.ofString ".").names = [] := by decide
    have habsolute : Tree.isAbsolute "." = false := by decide
    simp [spec?, hnames, habsolute, collapse?]
  have hcovered : isCovered "" = fun _ => true := by
    funext path
    simp [isCovered]
  have hlist : p.trackedAt? "." =
      some (((tracked.filter (isCovered "")).mergeSort Tree.isBefore).map quotedName) := by
    rw [trackedAt?, htracked, hspec]
    rfl
  rw [hlist, hcovered, List.filter_true]

end Project

end Letterhead
