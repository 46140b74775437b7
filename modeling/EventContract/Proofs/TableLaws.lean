import EventContract.Table
import Mathlib.Data.List.Induction

/-! # Laws of tables with a remembered order

A table that is built from pairs has each key once, where it came in first, and under it the value
that came in last. Building from a table that is built already changes nothing, so a long list of
pairs may be put in piece by piece.
-/

namespace EventContract.Table

variable {α : Type}

/-! ## Looking up -/

theorem mem_of_get? {t : Table α} {key : String} {value : α} (h : t.get? key = some value) :
    (key, value) ∈ t := by
  induction t with
  | nil => simp [get?] at h
  | cons entry rest ih =>
      obtain ⟨k, v⟩ := entry
      by_cases hk : k = key
      · rw [get?, if_pos hk, Option.some.injEq] at h
        rw [hk, h]
        exact List.mem_cons_self
      · rw [get?, if_neg hk] at h
        exact List.mem_cons_of_mem _ (ih h)

theorem mem_keys_of_get? {t : Table α} {key : String} {value : α}
    (h : t.get? key = some value) : key ∈ t.keys :=
  List.mem_map_of_mem (mem_of_get? h)

/-- With distinct keys, every entry is found. -/
theorem get?_of_mem {t : Table α} (hdistinct : t.keys.Nodup) {key : String} {value : α}
    (hmem : (key, value) ∈ t) : t.get? key = some value := by
  induction t with
  | nil => simp at hmem
  | cons entry rest ih =>
      obtain ⟨k, v⟩ := entry
      obtain ⟨hnew, hrest⟩ := List.nodup_cons.mp hdistinct
      rcases List.mem_cons.mp hmem with heq | hmem
      · cases heq
        rw [get?, if_pos rfl]
      · have hne : k ≠ key := by
          rintro rfl
          exact hnew (List.mem_map.mpr ⟨_, hmem, rfl⟩)
        rw [get?, if_neg hne]
        exact ih hrest hmem

theorem mem_keys_iff {t : Table α} {key : String} : key ∈ t.keys ↔ (t.get? key).isSome := by
  induction t with
  | nil => simp [keys, get?]
  | cons entry rest ih =>
      obtain ⟨k, v⟩ := entry
      by_cases hk : k = key
      · simp [keys, get?, hk]
      · rw [get?, if_neg hk, ← ih]
        simp [keys, Ne.symm hk]

/-! ## Changing a key -/

/-- Putting what is there already changes nothing. -/
theorem put_eq_self {t : Table α} {key : String} {value : α} (h : t.get? key = some value) :
    t.put key value = t := by
  induction t with
  | nil => simp [get?] at h
  | cons entry rest ih =>
      obtain ⟨k, v⟩ := entry
      by_cases hk : k = key
      · rw [get?, if_pos hk, Option.some.injEq] at h
        rw [put, if_pos hk, h]
      · rw [get?, if_neg hk] at h
        rw [put, if_neg hk, ih h]

theorem get?_remove (t : Table α) (key key' : String) :
    (t.remove key).get? key' = if key = key' then none else t.get? key' := by
  induction t with
  | nil => simp [remove, get?]
  | cons entry rest ih =>
      obtain ⟨k, v⟩ := entry
      rw [remove] at ih
      by_cases hk : k = key
      · rw [remove, List.filter_cons_of_neg (by simpa using hk), ih, get?, hk]
        split <;> rfl
      · rw [remove, List.filter_cons_of_pos (by simpa using hk), get?, get?, ih]
        by_cases hkey : k = key'
        · rw [if_pos hkey, if_pos hkey, if_neg fun heq => hk (hkey.trans heq.symm)]
        · rw [if_neg hkey, if_neg hkey]

theorem nodup_keys_remove {t : Table α} (h : t.keys.Nodup) (key : String) :
    (t.remove key).keys.Nodup :=
  h.sublist (List.filter_sublist.map _)

/-! ## Tables from pairs -/

theorem put_of_not_mem {t : Table α} {key : String} (hnew : key ∉ t.keys) (value : α) :
    t.put key value = t ++ [(key, value)] := by
  induction t with
  | nil => rfl
  | cons entry rest ih =>
      obtain ⟨k, v⟩ := entry
      simp only [keys, List.map_cons, List.mem_cons, not_or] at hnew
      rw [put, if_neg (Ne.symm hnew.1), ih hnew.2, List.cons_append]

theorem ofPairs_append_singleton (pairs : List (String × α)) (entry : String × α) :
    ofPairs (pairs ++ [entry]) = (ofPairs pairs).put entry.1 entry.2 := by
  rw [ofPairs, List.foldl_append]
  rfl

/-- Each key once, where it came in first. -/
theorem keys_ofPairs (pairs : List (String × α)) :
    (ofPairs pairs).keys = (pairs.map Prod.fst).eraseDups := by
  -- From the end, since the last pair is put into the table that the others make.
  induction pairs using List.reverseRecOn with
  | nil => rfl
  | append_singleton pairs entry ih =>
      rw [ofPairs_append_singleton, keys_put, ih, List.map_append, List.eraseDups_append]
      by_cases hmem : entry.1 ∈ pairs.map Prod.fst
      · simp only [List.mem_eraseDups, hmem, if_true, List.map_cons, List.map_nil,
          List.cons_removeAll, List.contains_eq_mem, decide_true]
        simp
      · simp only [List.mem_eraseDups, hmem, if_false, List.map_cons, List.map_nil,
          List.cons_removeAll, List.contains_eq_mem, decide_false]
        simp [List.eraseDups_cons]

/-- Under each key the value that came in last. -/
theorem get?_ofPairs (pairs : List (String × α)) (key : String) :
    (ofPairs pairs).get? key =
      (pairs.reverse.find? fun entry => entry.1 = key).map Prod.snd := by
  induction pairs using List.reverseRecOn with
  | nil => rfl
  | append_singleton pairs entry ih =>
      rw [ofPairs_append_singleton, get?_put, List.reverse_append, List.reverse_singleton,
        List.singleton_append, List.find?_cons]
      by_cases hkey : entry.1 = key
      · simp [hkey]
      · simp [hkey, ih]

theorem nodup_keys_ofPairs (pairs : List (String × α)) : (ofPairs pairs).keys.Nodup := by
  induction pairs using List.reverseRecOn with
  | nil => exact List.nodup_nil
  | append_singleton pairs entry ih =>
      rw [ofPairs_append_singleton]
      exact nodup_keys_put ih _ _

theorem mem_of_mem_ofPairs {pairs : List (String × α)} {entry : String × α}
    (h : entry ∈ ofPairs pairs) : entry ∈ pairs := by
  induction pairs using List.reverseRecOn with
  | nil => exact h
  | append_singleton pairs last ih =>
      rw [ofPairs_append_singleton] at h
      rcases mem_put h with rfl | h
      · exact List.mem_append_right _ List.mem_cons_self
      · exact List.mem_append_left _ (ih h)

/-- A table with distinct keys is what its own entries build. -/
theorem ofPairs_eq_self {t : Table α} (hdistinct : t.keys.Nodup) : ofPairs t = t := by
  induction t using List.reverseRecOn with
  | nil => rfl
  | append_singleton t entry ih =>
      rw [keys, List.map_append] at hdistinct
      obtain ⟨ht, -, hdisjoint⟩ := List.nodup_append.mp hdistinct
      have hnew : entry.1 ∉ keys t := fun hmem => hdisjoint _ hmem _ List.mem_cons_self rfl
      rw [ofPairs_append_singleton, ih ht, put_of_not_mem hnew]

/-- The first pairs may be built into a table before the others come in. -/
theorem ofPairs_append (first second : List (String × α)) :
    ofPairs (first ++ second) = ofPairs (ofPairs first ++ second) := by
  calc ofPairs (first ++ second)
      = second.foldl (fun t entry => t.put entry.1 entry.2) (ofPairs first) :=
        List.foldl_append
    _ = second.foldl (fun t entry => t.put entry.1 entry.2) (ofPairs (ofPairs first)) := by
        rw [ofPairs_eq_self (nodup_keys_ofPairs first)]
    _ = ofPairs (ofPairs first ++ second) := List.foldl_append.symm

end EventContract.Table
