import Letterhead.Proofs.Settings.Entries
import Letterhead.Proofs.Settings.Field

/-!
Settings are read back from the data that are written of them.

Whatever is written of a section is read as that section. Of the files this holds if no key comes
twice and the keys of the comment styles are normalized, and checks see to that, so reading what was
written of settings that were read changes nothing. The same normal keys tell which of several
entries gives the comment marker of an extension.
-/

namespace Letterhead

namespace Settings

open Checked

variable {α : Type} {thisYear : Int} {d : Datum} {s : Settings}

/-! ### Fields that are written -/

/-- Entries as they are written. -/
def written (es : List (String × Datum)) : Entries := es.map fun (k, v) => (.string k, v)

lemma checkSection_fields (read : Entries → Checked α) (es : List (String × Datum)) :
    checkSection read (fields es) = read (written es) := rfl

lemma field_written (name : String) (check : Datum → Checked α) (default : α)
    (es : List (String × Datum)) :
    field name check default (written es) =
      (es.lookup name).elim (.valid default) fun d => (check d).behind name := by
  unfold field written
  rw [find?_fields]
  cases es.lookup name with
  | none => rfl
  | some d => rfl

@[simp] lemma checkBool_bool (b : Bool) : checkBool (.bool b) = .valid b := rfl

@[simp] lemma checkInt_int (i : Int) : checkInt (.int i) = .valid i := rfl

@[simp] lemma checkNat_int (n : Nat) : checkNat (.int n) = .valid n := by
  simp [checkNat, Checked.bind]

@[simp] lemma checkList_textList (ss : List String) : checkList (textList ss) = .valid ss := by
  rw [textList, checkList, all_eq_valid_iff, List.forall₂_map_left_iff, List.zipIdx_map,
    List.forall₂_map_left_iff]
  conv => arg 3; rw [← List.zipIdx_map_fst 0 ss]
  rw [List.forall₂_map_right_iff]
  exact List.forall₂_same.mpr fun x _ => by simp

@[simp] lemma checkAction_name (a : ThirdPartyAction) :
    checkAction (.string a.name) = .valid a := by
  rw [checkAction, checkText_string]
  cases a <;> rfl

/-! ### Sections that are written -/

@[simp] lemma checkCopyright_toDatum (c : Copyright) :
    checkCopyright thisYear c.toDatum = .valid c := by
  simp [checkCopyright, Copyright.toDatum, checkSection_fields, field_written, List.lookup_cons]

@[simp] lemma checkLicense_toDatum (l : License) : checkLicense l.toDatum = .valid l := by
  simp [checkLicense, License.toDatum, checkSection_fields, field_written, List.lookup_cons]

@[simp] lemma checkExceptions_toDatum (e : Exceptions) : checkExceptions e.toDatum = .valid e := by
  simp [checkExceptions, Exceptions.toDatum, checkSection_fields, field_written, List.lookup_cons]

@[simp] lemma checkIndicator_toDatum (i : Indicator) : checkIndicator i.toDatum = .valid i := by
  simp [checkIndicator, Indicator.toDatum, checkSection_fields, field_written, List.lookup_cons]

@[simp] lemma checkDetection_toDatum (x : Detection) : checkDetection x.toDatum = .valid x := by
  simp [checkDetection, Detection.toDatum, checkSection_fields, field_written, List.lookup_cons]

@[simp] lemma checkThirdParty_toDatum (t : ThirdParty) : checkThirdParty t.toDatum = .valid t := by
  simp [checkThirdParty, ThirdParty.toDatum, checkSection_fields, field_written, List.lookup_cons]

/-- The keys of comment styles are written as they are looked up, and no key comes twice. -/
structure Files.IsNormal (f : Files) : Prop where
  indicators : (f.smartIndicators.map (·.1)).Nodup
  styles : (f.commentStyles.map (·.1)).Nodup
  normalized : ∀ k ∈ f.commentStyles.map (·.1), extensionKey k = k

lemma checkEntries_fields {check : Datum → Checked α} {dump : α → Datum}
    (h : ∀ a, check (dump a) = .valid a) {entries : List (String × α)}
    (hkeys : (entries.map (·.1)).Nodup) :
    checkEntries check (fields (entries.map fun (k, a) => (k, dump a))) = .valid entries := by
  refine checkEntries_eq_valid_iff.mpr ⟨_, entries, rfl, ?_, collect_of_nodup hkeys⟩
  rw [List.map_map, List.forall₂_map_left_iff]
  exact List.forall₂_same.mpr fun e _ => ⟨.text e.1, h e.2⟩

lemma checkStyles_fields {styles : List (String × String)} (hkeys : (styles.map (·.1)).Nodup)
    (hnormal : ∀ k ∈ styles.map (·.1), extensionKey k = k) :
    checkStyles (fields (styles.map fun (k, m) => (k, .string m))) = .valid styles := by
  have hsame : (styles.map fun (k, v) => (extensionKey k, v)) = styles := by
    conv_rhs => rw [← List.map_id styles]
    exact List.map_congr_left fun e he => Prod.ext (hnormal e.1 (List.mem_map_of_mem he)) rfl
  rw [checkStyles, checkEntries_fields checkText_string hkeys, map_valid, hsame,
    collect_of_nodup hkeys]

lemma checkFiles_toDatum {f : Files} (h : f.IsNormal) : checkFiles f.toDatum = .valid f := by
  have hindicators := checkEntries_fields checkIndicator_toDatum h.indicators
  have hstyles := checkStyles_fields h.styles h.normalized
  simp [checkFiles, Files.toDatum, checkSection_fields, field_written, List.lookup_cons,
    hindicators, hstyles]

lemma ofSections_self (hhost : s.host = .usual) :
    ofSections s.copyright s.license s.files s.detection s.thirdParty = s := by
  rw [ofSections, ← hhost]

/-- **Settings are read as they are written**, in any year, if the keys of the files are normal. -/
theorem check_toDatum (thisYear : Int) (h : s.files.IsNormal) (hhost : s.host = .usual) :
    check thisYear s.toDatum = .valid s := by
  simp [check, toDatum, checkSection_fields, field_written, List.lookup_cons, checkFiles_toDatum h,
    ofSections_self hhost]

/-! ### Settings that are read -/

lemma extensionKey_of_not_mem {key : String} (h : '.' ∉ key.toList) : extensionKey key = key := by
  have hdrop : key.toList.dropWhile (· == '.') = key.toList := by
    rw [List.dropWhile_eq_self_iff]
    intro hlength hpoint
    exact h (beq_iff_eq.mp hpoint ▸ List.getElem_mem hlength)
  have hmap : key.toList.map (fun c => if c = '.' then '_' else c) = key.toList := by
    conv_rhs => rw [← List.map_id key.toList]
    exact List.map_congr_left fun c hc => if_neg fun (heq : c = '.') => h (heq ▸ hc)
  rw [extensionKey, hdrop, hmap, String.ofList_toList]

lemma extensionKey_extensionKey (ext : String) :
    extensionKey (extensionKey ext) = extensionKey ext := by
  refine extensionKey_of_not_mem fun h => ?_
  rw [extensionKey, String.toList_ofList, List.mem_map] at h
  obtain ⟨c, -, hc⟩ := h
  split at hc
  · cases hc
  · next hne => exact hne hc

/-- The entries have these texts. -/
def AreSpelled (es : Entries) (xs : List (String × String)) : Prop :=
  List.Forall₂ (fun e x => Spells e.1 x.1 ∧ Spells e.2 x.2) es xs

lemma AreSpelled.unique {es : Entries} {xs ys : List (String × String)} (h : AreSpelled es xs)
    (h' : AreSpelled es ys) : xs = ys :=
  List.right_unique_forall₂'
    (fun _ _ _ hx hy => Prod.ext (hx.1.unique hy.1) (hx.2.unique hy.2)) h h'

/-- The comment styles that are read from entries: their keys are normalized after those that are
the same text have become one. -/
lemma checkStyles_eq_valid_iff {styles : List (String × String)} :
    checkStyles d = .valid styles ↔
      ∃ es xs, d = .mapping es ∧ AreSpelled es xs ∧
        collect (rekey extensionKey (collect xs)) = styles := by
  simp only [checkStyles, map_eq_valid_iff, checkEntries_eq_valid_iff, checkText_eq_valid_iff]
  constructor
  · rintro ⟨_, ⟨es, xs, rfl, hxs, rfl⟩, rfl⟩
    exact ⟨es, xs, rfl, hxs, rfl⟩
  · rintro ⟨es, xs, rfl, hxs, rfl⟩
    exact ⟨_, ⟨es, xs, rfl, hxs, rfl⟩, rfl⟩

lemma normalized_of_checkStyles {styles : List (String × String)}
    (h : checkStyles d = .valid styles) :
    (styles.map (·.1)).Nodup ∧ ∀ k ∈ styles.map (·.1), extensionKey k = k := by
  obtain ⟨es, xs, -, -, rfl⟩ := checkStyles_eq_valid_iff.mp h
  refine ⟨nodup_keys_collect _, fun k hk => ?_⟩
  rw [keys_collect, List.mem_eraseDups, rekey, List.map_map, List.mem_map] at hk
  obtain ⟨x, -, rfl⟩ := hk
  exact extensionKey_extensionKey x.1

lemma nodup_of_checkEntries {check : Datum → Checked α} {found : List (String × α)}
    (h : checkEntries check d = .valid found) : (found.map (·.1)).Nodup := by
  obtain ⟨es, xs, -, -, rfl⟩ := checkEntries_eq_valid_iff.mp h
  exact nodup_keys_collect xs

lemma fields_of_checkFiles {f : Files} (h : checkFiles d = .valid f) :
    ∃ es, d = .mapping es ∧
      field "smart_indicators" (checkEntries checkIndicator) [] es = .valid f.smartIndicators ∧
      field "comment_styles" checkStyles [] es = .valid f.commentStyles := by
  obtain ⟨es, rfl, hfields⟩ := checkSection_eq_valid_iff.mp h
  refine ⟨es, rfl, ?_⟩
  simp only [app_eq_valid_iff, map_eq_valid_iff] at hfields
  -- the last field comes first
  obtain ⟨_, _, ⟨_, _, ⟨_, _, ⟨_, _, ⟨_, _, ⟨_, _, ⟨_, _, ⟨_, _, ⟨_, _, ⟨_, _,
    ⟨_, -, rfl⟩, -, rfl⟩, hindicators, rfl⟩, -, rfl⟩, -, rfl⟩, -, rfl⟩, -, rfl⟩, hstyles, rfl⟩,
    -, rfl⟩, -, rfl⟩, -, rfl⟩ := hfields
  exact ⟨hindicators, hstyles⟩

lemma isNormal_of_checkFiles {f : Files} (h : checkFiles d = .valid f) : f.IsNormal := by
  obtain ⟨es, -, hindicators, hstyles⟩ := fields_of_checkFiles h
  rw [field_eq_valid_iff] at hindicators hstyles
  have hkeys : (f.smartIndicators.map (·.1)).Nodup := by
    rcases hindicators with ⟨x, -, hx⟩ | ⟨-, hnone⟩
    · exact nodup_of_checkEntries hx
    · rw [hnone]
      exact List.nodup_nil
  obtain ⟨hstyles, hnormal⟩ : (f.commentStyles.map (·.1)).Nodup ∧
      ∀ k ∈ f.commentStyles.map (·.1), extensionKey k = k := by
    rcases hstyles with ⟨x, -, hx⟩ | ⟨-, hnone⟩
    · exact normalized_of_checkStyles hx
    · simp [hnone]
  exact ⟨hkeys, hstyles, hnormal⟩

lemma files_of_check (h : check thisYear d = .valid s) :
    ∃ es, d = .mapping es ∧ field "files" checkFiles Files.default es = .valid s.files ∧
      s.host = .usual := by
  obtain ⟨es, rfl, hfields⟩ := checkSection_eq_valid_iff.mp h
  refine ⟨es, rfl, ?_⟩
  simp only [app_eq_valid_iff, map_eq_valid_iff] at hfields
  obtain ⟨_, _, ⟨_, _, ⟨_, _, ⟨_, _, ⟨_, -, rfl⟩, -, rfl⟩, hfiles, rfl⟩, -, rfl⟩, -, rfl⟩ := hfields
  exact ⟨hfiles, rfl⟩

lemma isNormal_of_ofDatum (h : ofDatum thisYear d = .ok s) : s.files.IsNormal := by
  obtain ⟨es, -, hfiles, -⟩ := files_of_check (toExcept_eq_ok_iff.mp h)
  rcases field_eq_valid_iff.mp hfiles with ⟨x, -, hx⟩ | ⟨-, hnone⟩
  · exact isNormal_of_checkFiles hx
  · rw [hnone]
    exact ⟨.nil, .nil, by simp [Files.default]⟩

/-! ### Comment styles -/

/-- The entries of a mapping; other data have none. -/
def entriesIn : Datum → Entries
  | .mapping es => es
  | _ => []

/-- The value under a name in a mapping. -/
def part (name : String) (d : Datum) : Datum := (Datum.find? name (entriesIn d)).getD .null

lemma part_mapping (name : String) (es : Entries) :
    part name (.mapping es) = (Datum.find? name es).getD .null := rfl

/-- The entries of the comment styles in the data of a configuration. -/
def styleEntries (d : Datum) : Entries := entriesIn (part "comment_styles" (part "files" d))

/-- The value of the last entry whose key is normalized as the extension is. -/
def lastStyle? (xs : List (String × String)) (ext : String) : Option String :=
  (xs.reverse.find? fun x => extensionKey x.1 = extensionKey ext).map (·.2)

/-- Of the keys that are normalized as the extension is, the one that is the last to come in; a key
that comes twice has come in before. -/
def lastSpelling? (xs : List (String × String)) (ext : String) : Option String :=
  (xs.map (·.1)).eraseDups.reverse.find? fun k => extensionKey k = extensionKey ext

/-- The value of the last entry with the key that is the last to come in. -/
def settledStyle? (xs : List (String × String)) (ext : String) : Option String :=
  (lastSpelling? xs ext).bind fun k => xs.reverse.lookup k

lemma settledStyle?_of_nodup {xs : List (String × String)} (h : (xs.map (·.1)).Nodup)
    (ext : String) : settledStyle? xs ext = lastStyle? xs ext := by
  have hfound := find?_collect (fun k => extensionKey k = extensionKey ext) xs
  rw [collect_of_nodup h] at hfound
  exact hfound.symm

lemma lookup_styles (xs : List (String × String)) (ext : String) :
    (collect (rekey extensionKey (collect xs))).lookup (extensionKey ext) = settledStyle? xs ext :=
  (lookup_collect_rekey extensionKey (collect xs) (extensionKey ext)).trans
    (find?_collect (fun k => extensionKey k = extensionKey ext) xs)

lemma styles_of_ofDatum (h : ofDatum thisYear d = .ok s) :
    ∃ xs, AreSpelled (styleEntries d) xs ∧
      s.files.commentStyles = collect (rekey extensionKey (collect xs)) := by
  obtain ⟨es, rfl, hfiles, -⟩ := files_of_check (toExcept_eq_ok_iff.mp h)
  rcases field_eq_valid_iff.mp hfiles with ⟨f, hf, hvalid⟩ | ⟨hnone, hdefault⟩
  · obtain ⟨fs, rfl, -, hstyles⟩ := fields_of_checkFiles hvalid
    rcases field_eq_valid_iff.mp hstyles with ⟨c, hc, hvalid⟩ | ⟨hnone, hdefault⟩
    · obtain ⟨cs, xs, rfl, hxs, hcollect⟩ := checkStyles_eq_valid_iff.mp hvalid
      refine ⟨xs, ?_, hcollect.symm⟩
      rw [styleEntries, part_mapping, hf, Option.getD_some, part_mapping, hc]
      exact hxs
    · refine ⟨[], ?_, hdefault⟩
      rw [styleEntries, part_mapping, hf, Option.getD_some, part_mapping, hnone]
      exact .nil
  · refine ⟨[], ?_, by rw [hdefault]; rfl⟩
    rw [styleEntries, part_mapping, hnone]
    exact .nil

/-- Data with latitude: a section is left out, another one is unknown, numbers and switches are
given as texts, and two keys of comment styles are normalized to one. -/
def loose : Datum :=
  fields [
    ("copyright", fields [("start_year", .string " 2_019 "), ("current_year", .bool true)]),
    ("colours", .null),
    ("files", fields [
      ("smart_indicators",
        fields [(".tf", fields []), (".md", fields [("content", textList ["#"])])]),
      ("comment_styles", fields [(".html.markdown", .string "<!--"), ("go", .string "//"),
        ("html_markdown", .string "#")]),
      ("git_tracked", .string "YES")]),
    ("detection", fields [("max_scan_lines", .string "3.0")])]

/-- The settings in them. -/
def loosened : Settings :=
  { Settings.default 2025 with
    copyright := { Copyright.default 2025 with startYear := 2019, currentYear := 1 }
    files := { Files.default with
      smartIndicators := [(".tf", Indicator.default), (".md", ⟨["#"], []⟩)]
      commentStyles := [("html_markdown", "#"), ("go", "//")]
      gitTracked := true }
    detection := { Detection.default with maxScanLines := 3 } }

/-- Comment styles for one extension: a key that is given as bytes, one with a point, and the first
one again. -/
def restated : Datum :=
  fields [("files", fields [("comment_styles", .mapping [(.bytes [0x67, 0x6F], .string "#"),
    (.string ".go", .string "//"), (.string "go", .string ";")])])]

/-- The settings in them. -/
def unsettled : Settings :=
  { Settings.default 2025 with files := { Files.default with commentStyles := [("go", "//")] } }

end Settings

end Letterhead
