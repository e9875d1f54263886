import Mathlib.Data.List.Induction
import Mathlib.Data.List.Nodup
import Letterhead.Settings.Validate

/-!
Entries in which a later value takes the place of an earlier one.

What is collected is told by two things: the keys, in the order in which they first come, and for
each key the last value under it. If the keys are rewritten and several become one, the last of them
counts.
-/

namespace Letterhead.Settings

variable {α : Type} {entries : List (String × α)} {key : String}

/-! ### One entry more -/

lemma any_key_iff : (entries.any (·.1 = key)) = true ↔ key ∈ entries.map (·.1) := by
  rw [List.any_eq_true, List.mem_map]
  simp only [decide_eq_true_eq]

lemma put_of_mem (h : key ∈ entries.map (·.1)) (value : α) :
    put entries key value = entries.map fun e => if e.1 = key then (key, value) else e :=
  if_pos (any_key_iff.mpr h)

lemma put_of_not_mem (h : key ∉ entries.map (·.1)) (value : α) :
    put entries key value = entries ++ [(key, value)] :=
  if_neg (mt any_key_iff.mp h)

lemma keys_put (entries : List (String × α)) (key : String) (value : α) :
    (put entries key value).map (·.1) =
      if key ∈ entries.map (·.1) then entries.map (·.1) else entries.map (·.1) ++ [key] := by
  by_cases h : key ∈ entries.map (·.1)
  · rw [put_of_mem h, if_pos h, List.map_map]
    refine List.map_congr_left fun e _ => ?_
    by_cases he : e.1 = key <;> simp [he]
  · rw [put_of_not_mem h, if_neg h, List.map_append, List.map_singleton]

lemma lookup_put_self (entries : List (String × α)) (key : String) (value : α) :
    (put entries key value).lookup key = some value := by
  by_cases h : key ∈ entries.map (·.1)
  · rw [put_of_mem h]
    induction entries with
    | nil => cases h
    | cons e entries ih =>
      obtain ⟨x, v⟩ := e
      by_cases hx : x = key
      · simp only [List.map_cons, hx, if_true, List.lookup_cons_self]
      · have hne : (key == x) = false := beq_false_of_ne (Ne.symm hx)
        simp only [List.map_cons, if_neg hx, List.lookup_cons, hne]
        exact ih ((List.mem_cons.mp h).resolve_left (Ne.symm hx))
  · have hnone : entries.lookup key = none :=
      List.lookup_eq_none_iff.mpr fun e he =>
        bne_iff_ne.mpr fun heq => h (List.mem_map.mpr ⟨e, he, heq.symm⟩)
    rw [put_of_not_mem h, List.lookup_append, hnone, Option.none_or, List.lookup_cons_self]

lemma lookup_put_of_ne {k : String} (hk : k ≠ key) (entries : List (String × α)) (value : α) :
    (put entries key value).lookup k = entries.lookup k := by
  have hne : (k == key) = false := beq_false_of_ne hk
  by_cases h : key ∈ entries.map (·.1)
  · rw [put_of_mem h]
    clear h
    induction entries with
    | nil => rfl
    | cons e entries ih =>
      obtain ⟨x, v⟩ := e
      by_cases hx : x = key
      · simp only [List.map_cons, hx, if_true, List.lookup_cons, hne, ih]
      · simp only [List.map_cons, if_neg hx, List.lookup_cons, ih]
  · rw [put_of_not_mem h, List.lookup_append, List.lookup_cons, hne, List.lookup_nil,
      Option.or_none]

/-! ### All entries -/

lemma collect_concat (entries : List (String × α)) (e : String × α) :
    collect (entries ++ [e]) = put (collect entries) e.1 e.2 := by
  rw [collect, List.foldl_concat]
  rfl

lemma eraseDups_concat (l : List String) (k : String) :
    (l ++ [k]).eraseDups = if k ∈ l then l.eraseDups else l.eraseDups ++ [k] := by
  have hone : [k].eraseDups = [k] := List.eraseDups_cons
  rw [List.eraseDups_append]
  by_cases h : k ∈ l <;> simp [List.removeAll, h, hone]

/-- **The keys stand in the order in which they first come.** -/
lemma keys_collect (entries : List (String × α)) :
    (collect entries).map (·.1) = (entries.map (·.1)).eraseDups := by
  induction entries using List.reverseRecOn with
  | nil => rfl
  | append_singleton entries e ih =>
    rw [collect_concat, keys_put, ih, List.map_append, List.map_singleton, eraseDups_concat]
    simp only [List.mem_eraseDups]

lemma nodup_keys_collect (entries : List (String × α)) :
    ((collect entries).map (·.1)).Nodup := by
  induction entries using List.reverseRecOn with
  | nil => exact List.nodup_nil
  | append_singleton entries e ih =>
    rw [collect_concat, keys_put]
    split
    · exact ih
    · next hnew => exact List.nodup_append_comm.mp (List.nodup_cons.mpr ⟨hnew, ih⟩)

/-- **Under a key stands the last value that comes with it.** -/
lemma lookup_collect (entries : List (String × α)) (key : String) :
    (collect entries).lookup key = entries.reverse.lookup key := by
  induction entries using List.reverseRecOn with
  | nil => rfl
  | append_singleton entries e ih =>
    rw [collect_concat, List.reverse_append, List.reverse_singleton, List.singleton_append,
      List.lookup_cons]
    by_cases hk : key = e.1
    · rw [hk, lookup_put_self, beq_self_eq_true]
    · rw [lookup_put_of_ne hk, beq_false_of_ne hk, ih]

lemma collect_of_nodup (h : (entries.map (·.1)).Nodup) : collect entries = entries := by
  induction entries using List.reverseRecOn with
  | nil => rfl
  | append_singleton entries e ih =>
    rw [List.map_append, List.map_singleton] at h
    obtain ⟨hnew, hrest⟩ := List.nodup_cons.mp (List.nodup_append_comm.mp h)
    rw [collect_concat, ih hrest, put_of_not_mem hnew]

/-! ### Rewritten keys -/

lemma lookup_of_mem (h : (entries.map (·.1)).Nodup) {e : String × α} (he : e ∈ entries) :
    entries.lookup e.1 = some e.2 := by
  obtain ⟨front, back, rfl⟩ := List.append_of_mem he
  rw [List.map_append, List.map_cons] at h
  refine List.lookup_eq_some_iff.mpr ⟨front, back, rfl, fun x hx => bne_iff_ne.mpr fun heq => ?_⟩
  exact (List.nodup_middle.mp h).notMem (List.mem_append_left _ (heq ▸ List.mem_map_of_mem hx))

/-- The entries with their keys rewritten. -/
def rekey (f : String → String) (entries : List (String × α)) : List (String × α) :=
  entries.map fun (k, v) => (f k, v)

lemma lookup_collect_rekey (f : String → String) (entries : List (String × α)) (key : String) :
    (collect (rekey f entries)).lookup key =
      (entries.reverse.find? fun e => f e.1 = key).map (·.2) := by
  rw [lookup_collect, rekey, ← List.map_reverse]
  induction entries.reverse with
  | nil => rfl
  | cons e rest ih =>
    rw [List.map_cons, List.lookup_cons, ih]
    by_cases he : f e.1 = key
    · rw [beq_iff_eq.mpr he.symm, List.find?_cons_of_pos (by simpa using he)]
      rfl
    · rw [beq_false_of_ne (Ne.symm he), List.find?_cons_of_neg (by simpa using he)]

lemma find?_collect (p : String → Bool) (entries : List (String × α)) :
    ((collect entries).reverse.find? fun e => p e.1).map (·.2) =
      ((entries.map (·.1)).eraseDups.reverse.find? p).bind fun k => entries.reverse.lookup k := by
  rw [← keys_collect, ← List.map_reverse, List.find?_map]
  cases hfound : (collect entries).reverse.find? fun e => p e.1 with
  | none =>
    have hnone : (collect entries).reverse.find? (p ∘ fun e => e.1) = none := hfound
    rw [hnone]
    rfl
  | some e =>
    have hsome : (collect entries).reverse.find? (p ∘ fun e => e.1) = some e := hfound
    have hmem := List.mem_reverse.mp (List.mem_of_find?_eq_some hfound)
    rw [hsome]
    exact (lookup_of_mem (nodup_keys_collect entries) hmem).symm.trans (lookup_collect entries e.1)

end Letterhead.Settings
