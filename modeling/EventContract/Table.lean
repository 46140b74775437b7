/-!
# Tables with a remembered order

A table maps texts to values and remembers the order in which its keys first came in. Giving a key
a new value keeps the key where it is. The members of an object, the documents of a store and the
events of a folded chain are all tables.
-/

namespace EventContract

/-- Keys and their values, in the order in which the keys came in. -/
abbrev Table (α : Type) := List (String × α)

namespace Table

variable {α : Type}

/-- The value under a key. -/
def get? (t : Table α) (key : String) : Option α :=
  match t with
  | [] => none
  | (k, v) :: rest => if k = key then some v else get? rest key

/-- Gives `key` the value `value`: in its place if the table has the key, else at the end. -/
def put (t : Table α) (key : String) (value : α) : Table α :=
  match t with
  | [] => [(key, value)]
  | (k, v) :: rest => if k = key then (k, value) :: rest else (k, v) :: put rest key value

/-- The table without a key. -/
def remove (t : Table α) (key : String) : Table α :=
  t.filter fun entry => entry.1 ≠ key

/-- The keys, in order. -/
def keys (t : Table α) : List String :=
  t.map Prod.fst

/-- The values, in order of their keys. -/
def values (t : Table α) : List α :=
  t.map Prod.snd

/-- Later pairs of one key replace the value and leave the place. -/
def ofPairs (pairs : List (String × α)) : Table α :=
  pairs.foldl (fun t entry => t.put entry.1 entry.2) []

/-- A key that was put reads back as the value put last, and the others as before. -/
theorem get?_put (t : Table α) (key : String) (value : α) (key' : String) :
    (t.put key value).get? key' = if key = key' then some value else t.get? key' := by
  induction t with
  | nil => simp [put, get?]
  | cons entry rest ih =>
    obtain ⟨k, v⟩ := entry
    by_cases hk : k = key
    · subst hk
      by_cases h : k = key' <;> simp [put, get?, h]
    · by_cases h : k = key'
      · subst h
        simp [put, get?, hk, Ne.symm hk]
      · simp [put, get?, hk, h, ih]

/-- Putting a key that is there keeps the order; a new key goes to the end. -/
theorem keys_put (t : Table α) (key : String) (value : α) :
    (t.put key value).keys = if key ∈ t.keys then t.keys else t.keys ++ [key] := by
  induction t with
  | nil => simp [put, keys]
  | cons entry rest ih =>
    obtain ⟨k, v⟩ := entry
    by_cases hk : k = key
    · simp [put, keys, hk]
    · by_cases h : key ∈ rest.map Prod.fst <;>
        simp_all [put, keys, Ne.symm hk]

/-- What a table holds after a key was put is the new entry or was there before. -/
theorem mem_put {t : Table α} {key : String} {value : α} {entry : String × α}
    (h : entry ∈ t.put key value) : entry = (key, value) ∨ entry ∈ t := by
  induction t with
  | nil => simpa [put] using h
  | cons first rest ih =>
    obtain ⟨k, v⟩ := first
    by_cases hk : k = key
    · subst hk
      rw [put, if_pos rfl] at h
      exact (List.mem_cons.mp h).imp_right (List.mem_cons_of_mem _)
    · rw [put, if_neg hk] at h
      rcases List.mem_cons.mp h with rfl | h
      · exact .inr List.mem_cons_self
      · exact (ih h).imp_right (List.mem_cons_of_mem _)

/-- Putting a key keeps the keys distinct. -/
theorem nodup_keys_put {t : Table α} (h : t.keys.Nodup) (key : String) (value : α) :
    (t.put key value).keys.Nodup := by
  rw [keys_put]
  split
  next => exact h
  next hnew =>
    refine List.nodup_append.mpr ⟨h, by simp, ?_⟩
    rintro k hk _ hkey rfl
    exact hnew (List.mem_singleton.mp hkey ▸ hk)

end Table

end EventContract
