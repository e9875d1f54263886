import Mathlib.Data.List.Basic
import Letterhead.Tree.Locate
import Letterhead.Proofs.Text.Lines

/-!
The text of a path and its names.

Names that a folder may hold have no slash, so the path of a file below a folder goes through the
names that lead to the folder and then through those of the file.
-/

namespace Letterhead

namespace Path

/-- A folder may hold an entry of this name. -/
structure IsName (name : String) : Prop where
  ne_empty : name ≠ ""
  ne_point : name ≠ "."
  ne_points : name ≠ ".."
  no_slash : '/' ∉ name.toList

instance (name : String) : Decidable (IsName name) :=
  decidable_of_iff (name ≠ "" ∧ name ≠ "." ∧ name ≠ ".." ∧ '/' ∉ name.toList)
    ⟨fun ⟨h1, h2, h3, h4⟩ => ⟨h1, h2, h3, h4⟩, fun ⟨h1, h2, h3, h4⟩ => ⟨h1, h2, h3, h4⟩⟩

lemma toChar?_ofChar (c : Char) : (CodePoint.ofChar c).toChar? = some c := by
  have hvalid : c.toNat.isValidChar := c.valid
  rw [CodePoint.toChar?, CodePoint.ofChar, dif_pos hvalid, Option.some.injEq]
  exact Char.ext (UInt32.toNat_inj.mp rfl)

lemma toStringLossy_ofString (s : String) : (Text.ofString s).toStringLossy = s := by
  have hchars : (Text.ofString s).map (fun c => c.toChar?.getD '\uFFFD') = s.toList := by
    rw [Text.ofString, Text.ofChars, List.map_map]
    exact (List.map_congr_left fun c _ => by simp [toChar?_ofChar]).trans (List.map_id _)
  rw [Text.toStringLossy, hchars, String.ofList_toList]

lemma slash_mem_ofString {s : String} :
    CodePoint.ofChar '/' ∈ Text.ofString s ↔ '/' ∈ s.toList := by
  rw [Text.ofString, Text.ofChars, List.mem_map]
  constructor
  · rintro ⟨c, hc, heq⟩
    have hsame := congrArg CodePoint.toChar? heq
    rw [toChar?_ofChar, toChar?_ofChar] at hsame
    exact Option.some.inj hsame ▸ hc
  · exact fun h => ⟨'/', h, rfl⟩

lemma parts_append_slash (p q : String) : parts (p ++ "/" ++ q) = parts p ++ parts q := by
  have htext : Text.ofString (p ++ "/" ++ q) =
      Text.ofString p ++ CodePoint.ofChar '/' :: Text.ofString q := by
    simp [Text.ofString, Text.ofChars]
  rw [parts, htext, Text.cutAt_append, List.map_append, List.filter_append, parts, parts]

lemma parts_of_isName {name : String} (h : IsName name) : parts name = [name] := by
  rw [parts, Text.cutAt_of_not_mem _ (mt slash_mem_ofString.mp h.no_slash), List.map_singleton,
    toStringLossy_ofString]
  simp [h.ne_empty]

lemma parts_intercalate (path : String) {names : List String} (h : ∀ name ∈ names, IsName name) :
    parts ("/".intercalate (path :: names)) = parts path ++ names := by
  induction names generalizing path with
  | nil => simp
  | cons name names ih =>
    obtain ⟨hname, hnames⟩ := List.forall_mem_cons.mp h
    rw [String.intercalate_cons_cons, parts_append_slash, ih name hnames, parts_of_isName hname]
    rfl

lemma endsIn_slash_iff {s : String} : endsIn s "/" = true ↔ s.toList.getLast? = some '/' := by
  rw [endsIn, List.isSuffixOf_iff_suffix]
  exact List.singleton_suffix_iff_getLast?_eq_some

lemma getLast?_intercalate {names : List String} (hne : names ≠ [])
    (h : ∀ name ∈ names, name ≠ "" ∧ '/' ∉ name.toList) :
    ∃ c, ("/".intercalate names).toList.getLast? = some c ∧ c ≠ '/' := by
  induction names with
  | nil => exact absurd rfl hne
  | cons name names ih =>
    obtain ⟨⟨hempty, hname⟩, hnames⟩ := List.forall_mem_cons.mp h
    rcases names with _ | ⟨second, names⟩
    · have hchars : name.toList ≠ [] := fun hnil => hempty (String.toList_eq_nil_iff.mp hnil)
      refine ⟨name.toList.getLast hchars, ?_, ?_⟩
      · rw [String.intercalate_singleton, List.getLast?_eq_some_getLast hchars]
      · exact fun heq => hname (heq ▸ List.getLast_mem hchars)
    · obtain ⟨c, hc, hslash⟩ := ih (List.cons_ne_nil _ _) hnames
      refine ⟨c, ?_, hslash⟩
      rw [String.intercalate_cons_cons, String.toList_append, List.getLast?_append, hc]
      rfl

lemma endsIn_slash_intercalate (path : String) {names : List String} (hne : names ≠ [])
    (h : ∀ name ∈ names, name ≠ "" ∧ '/' ∉ name.toList) :
    endsIn ("/".intercalate (path :: names)) "/" = false := by
  obtain ⟨c, hc, hslash⟩ := getLast?_intercalate hne h
  obtain ⟨name, names, rfl⟩ := List.exists_cons_of_ne_nil hne
  rw [← Bool.not_eq_true, endsIn_slash_iff, String.intercalate_cons_cons, String.toList_append,
    List.getLast?_append, hc]
  simpa using hslash

/-! ### Paths below another one -/

lemma exists_below (path : String) {names : List String} (hne : names ≠ []) :
    ∃ folder, parts folder = parts path ∧ below path names = "/".intercalate (folder :: names) := by
  obtain ⟨name, names, rfl⟩ := List.exists_cons_of_ne_nil hne
  unfold below
  split
  · next hslash =>
    obtain ⟨front, hfront⟩ := List.isSuffixOf_iff_suffix.mp hslash
    have hpath : String.ofList front ++ "/" = path := by
      rw [← String.toList_inj, String.toList_append, String.toList_ofList, hfront]
    refine ⟨String.ofList front, ?_, ?_⟩
    · have hparts := parts_append_slash (String.ofList front) ""
      rw [String.append_empty, hpath] at hparts
      rw [hparts]
      exact (List.append_nil _).symm
    · rw [String.intercalate_cons_cons, hpath]
  · exact ⟨path, rfl, rfl⟩

lemma parts_below (path : String) {names : List String} (hne : names ≠ [])
    (h : ∀ name ∈ names, IsName name) : parts (below path names) = parts path ++ names := by
  obtain ⟨folder, hparts, hbelow⟩ := exists_below path hne
  rw [hbelow, parts_intercalate folder h, hparts]

lemma endsIn_slash_below (path : String) {names : List String} (hne : names ≠ [])
    (h : ∀ name ∈ names, IsName name) : endsIn (below path names) "/" = false := by
  obtain ⟨folder, -, hbelow⟩ := exists_below path hne
  rw [hbelow]
  exact endsIn_slash_intercalate folder hne fun name hname =>
    ⟨(h name hname).ne_empty, (h name hname).no_slash⟩

lemma isAbsolute_below {path : String} (hpath : path ≠ "") (names : List String) :
    Tree.isAbsolute (below path names) = Tree.isAbsolute path := by
  obtain ⟨c, cs, hc⟩ := List.exists_cons_of_ne_nil fun h => hpath (String.toList_eq_nil_iff.mp h)
  have hstart : ∃ rest, (below path names).toList = path.toList ++ rest := by
    unfold below
    split
    · exact ⟨_, String.toList_append⟩
    · rcases names with _ | ⟨name, names⟩
      · exact ⟨[], by rw [String.intercalate_singleton, List.append_nil]⟩
      · exact ⟨_, by
          rw [String.intercalate_cons_cons, String.append_assoc, String.toList_append]⟩
  obtain ⟨rest, hrest⟩ := hstart
  rw [Tree.isAbsolute, Tree.isAbsolute, hrest, hc]
  rfl

end Path

end Letterhead
