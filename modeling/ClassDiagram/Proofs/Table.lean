import ClassDiagram.Table
import Mathlib.Data.List.Nodup

/-!
# Tables with distinct keys

What is found under a key is one of the entries of a table, and every key has a value. Storing keeps
the keys distinct and puts new keys last, and only the last value that is stored under a key counts.
A table with distinct keys is determined by its keys and their values, which is `ext_get?`.
`mapValues` maps the values and leaves the keys alone. `update` stores all entries of another table:
`keys_update` and `get?_update` say what comes of it, and `update_insert` that it does not matter
whether a value is stored before or after.
-/

namespace ClassDiagram.Table

variable {κ α β : Type}

/-- An empty table has no keys. -/
theorem nodup_keys_empty : ({} : Table κ α).keys.Nodup := by
  show ([] : List κ).Nodup
  exact List.nodup_nil

/-- A table has as many entries as keys. -/
theorem size_eq (table : Table κ α) : table.size = table.keys.length := by
  rw [size, keys, List.length_map]

/-- A table with its values mapped. -/
def mapValues (f : α → β) (table : Table κ α) : Table κ β :=
  ⟨table.entries.map fun entry ↦ (entry.1, f entry.2)⟩

theorem mapValues_congr {f g : α → β} {table : Table κ α}
    (h : ∀ entry ∈ table.entries, f entry.2 = g entry.2) :
    table.mapValues f = table.mapValues g := by
  unfold mapValues
  congr 1
  exact List.map_congr_left fun entry hentry ↦ by rw [h entry hentry]

variable [DecidableEq κ]

/-- What is found under a key stands in the table under that key. -/
theorem mem_of_get? {table : Table κ α} {key : κ} {value : α} (h : table.get? key = some value) :
    (key, value) ∈ table.entries := by
  unfold get? at h
  obtain ⟨entry, hentry, hvalue⟩ := Option.map_eq_some_iff.1 h
  have hkey : entry.1 = key := by simpa using List.find?_some hentry
  rw [← hkey, ← hvalue]
  exact List.mem_of_find?_eq_some hentry

/-- A key has a value exactly if it is among the keys. -/
theorem mem_keys_iff {table : Table κ α} {key : κ} :
    key ∈ table.keys ↔ ∃ value, table.get? key = some value := by
  constructor
  · intro h
    obtain ⟨entry, hentry, hkey⟩ := List.mem_map.1 h
    have hfound : (table.entries.find? (fun entry ↦ entry.1 == key)).isSome := by
      rw [List.find?_isSome]
      exact ⟨entry, hentry, by simpa using hkey⟩
    obtain ⟨found, hfound⟩ := Option.isSome_iff_exists.1 hfound
    exact ⟨found.2, by simp [get?, hfound]⟩
  · intro h
    obtain ⟨value, hvalue⟩ := h
    exact List.mem_map.2 ⟨(key, value), mem_of_get? hvalue, rfl⟩

theorem contains_iff {table : Table κ α} {key : κ} :
    table.contains key = true ↔ key ∈ table.keys := by
  rw [contains, Option.isSome_iff_exists, mem_keys_iff]

/-- An entry after a store is the stored one or was there before. -/
theorem mem_put {key : κ} {value : α} {entries : List (κ × α)} {entry : κ × α}
    (h : entry ∈ put key value entries) : entry = (key, value) ∨ entry ∈ entries := by
  induction entries with
  | nil => exact Or.inl (by simpa [put] using h)
  | cons first rest ih =>
      unfold put at h
      split at h
      · rcases List.mem_cons.1 h with h | h
        · exact Or.inl h
        · exact Or.inr (List.mem_cons_of_mem _ h)
      · rcases List.mem_cons.1 h with h | h
        · exact Or.inr (h ▸ List.mem_cons_self)
        · rcases ih h with h | h
          · exact Or.inl h
          · exact Or.inr (List.mem_cons_of_mem _ h)

/-- The keys after a store are the stored one and those that were there before. -/
theorem mem_keys_insert {table : Table κ α} {key other : κ} {value : α} :
    other ∈ (table.insert key value).keys ↔ other = key ∨ other ∈ table.keys := by
  rw [keys_insert]
  split
  · next h =>
      constructor
      · exact Or.inr
      · rintro (rfl | hother)
        · exact h
        · exact hother
  · rw [List.mem_append, List.mem_singleton, or_comm]

/-- Storing keeps the keys distinct. -/
theorem nodup_keys_insert {table : Table κ α} (h : table.keys.Nodup) (key : κ) (value : α) :
    (table.insert key value).keys.Nodup := by
  rw [keys_insert]
  split
  · exact h
  · next hkey => exact List.nodup_append.2 ⟨h, List.nodup_singleton _, by grind⟩

/-- Of two values stored under the same key, only the second counts. -/
theorem insert_insert (table : Table κ α) (key : κ) (first second : α) :
    (table.insert key first).insert key second = table.insert key second := by
  obtain ⟨entries⟩ := table
  show (⟨put key second (put key first entries)⟩ : Table κ α) = ⟨put key second entries⟩
  congr 1
  induction entries with
  | nil => simp [put]
  | cons entry rest ih =>
      by_cases h : entry.1 = key
      · simp [put, h]
      · simp [put, h, ih]

/-- A value under a new key comes last. -/
theorem insert_of_not_mem {table : Table κ α} {key : κ} (h : key ∉ table.keys) (value : α) :
    table.insert key value = ⟨table.entries ++ [(key, value)]⟩ := by
  obtain ⟨entries⟩ := table
  show (⟨put key value entries⟩ : Table κ α) = ⟨entries ++ [(key, value)]⟩
  congr 1
  induction entries with
  | nil => rfl
  | cons entry rest ih =>
      simp only [keys, List.map_cons, List.mem_cons, not_or] at h
      have hne : ¬ entry.1 = key := fun heq ↦ h.1 heq.symm
      rw [put, if_neg hne, ih h.2, List.cons_append]

/-- Two tables with the same distinct keys in the same order, and the same values under them, are
the same. -/
theorem ext_get? {table other : Table κ α} (hdistinct : table.keys.Nodup)
    (hkeys : table.keys = other.keys) (hget : ∀ key ∈ table.keys, table.get? key = other.get? key) :
    table = other := by
  obtain ⟨entries⟩ := table
  obtain ⟨others⟩ := other
  congr 1
  induction entries generalizing others with
  | nil => exact (List.map_eq_nil_iff.1 hkeys.symm).symm
  | cons entry rest ih =>
      cases others with
      | nil => cases hkeys
      | cons first others =>
          obtain ⟨hkey, hrest⟩ := List.cons.inj hkeys
          rw [keys, List.map_cons, List.nodup_cons] at hdistinct
          have hvalue : entry.2 = first.2 := by
            have hhead := hget entry.1 List.mem_cons_self
            simpa [get?, ← hkey] using hhead
          have hsame : rest = others := by
            refine ih hdistinct.2 others hrest ?_
            intro key hmem
            have hne : ¬ entry.1 = key := fun heq ↦ hdistinct.1 (heq ▸ hmem)
            have htail := hget key (List.mem_cons_of_mem _ hmem)
            simpa [get?, hne, ← hkey] using htail
          rw [hsame, Prod.ext hkey hvalue]

/-! ## Mapped values -/

theorem get?_mapValues (f : α → β) (table : Table κ α) (key : κ) :
    (table.mapValues f).get? key = (table.get? key).map f := by
  simp [get?, mapValues, List.find?_map, Function.comp_def, Option.map_map]

theorem contains_mapValues (f : α → β) (table : Table κ α) (key : κ) :
    (table.mapValues f).contains key = table.contains key := by
  rw [contains, get?_mapValues, Option.isSome_map, contains]

/-- Mapping goes over a store. -/
theorem mapValues_insert (f : α → β) (table : Table κ α) (key : κ) (value : α) :
    (table.insert key value).mapValues f = (table.mapValues f).insert key (f value) := by
  obtain ⟨entries⟩ := table
  show (⟨(put key value entries).map fun entry ↦ (entry.1, f entry.2)⟩ : Table κ β) =
    ⟨put key (f value) (entries.map fun entry ↦ (entry.1, f entry.2))⟩
  congr 1
  induction entries with
  | nil => rfl
  | cons entry rest ih =>
      by_cases h : entry.1 = key
      · simp [put, h]
      · simp [put, h, ih]

/-- Mapping with another function for the value under one key is a store under that key. -/
theorem mapValues_update {f g : α → β} {table : Table κ α} {key : κ} {value : α}
    (hdistinct : table.keys.Nodup) (hget : table.get? key = some value)
    (hother : ∀ entry ∈ table.entries, entry.1 ≠ key → g entry.2 = f entry.2) :
    table.mapValues g = (table.mapValues f).insert key (g value) := by
  obtain ⟨entries⟩ := table
  show (⟨entries.map fun entry ↦ (entry.1, g entry.2)⟩ : Table κ β) =
    ⟨put key (g value) (entries.map fun entry ↦ (entry.1, f entry.2))⟩
  congr 1
  induction entries with
  | nil => simp [get?] at hget
  | cons entry rest ih =>
      obtain ⟨first, kept⟩ := entry
      rw [keys, List.map_cons, List.nodup_cons] at hdistinct
      by_cases hkey : first = key
      · -- the key stands here and nowhere behind
        have hvalue : kept = value := by simpa [get?, hkey] using hget
        have hrest : rest.map (fun entry ↦ (entry.1, g entry.2)) =
            rest.map fun entry ↦ (entry.1, f entry.2) := by
          apply List.map_congr_left
          intro entry hentry
          have hne : entry.1 ≠ key := by
            intro heq
            exact hdistinct.1 (List.mem_map.2 ⟨entry, hentry, heq.trans hkey.symm⟩)
          rw [hother entry (List.mem_cons_of_mem _ hentry) hne]
        simp [put, hkey, hvalue, hrest]
      · have hget' : (⟨rest⟩ : Table κ α).get? key = some value := by
          simpa [get?, hkey] using hget
        have hrest := ih hdistinct.2 hget'
          fun entry hentry ↦ hother entry (List.mem_cons_of_mem _ hentry)
        have hfirst : g kept = f kept := hother (first, kept) List.mem_cons_self hkey
        simp [put, hkey, hrest, hfirst]

/-! ## Storing all entries of another table -/

/-- A table after all entries of another one were stored in it, in order. -/
def update (table other : Table κ α) : Table κ α :=
  other.entries.foldl (fun table entry ↦ table.insert entry.1 entry.2) table

/-- A value under a key that is there may be stored before or after one under another key. -/
theorem insert_comm {table : Table κ α} {key other : κ} (h : key ∈ table.keys) (hne : other ≠ key)
    (value value' : α) :
    (table.insert other value').insert key value =
      (table.insert key value).insert other value' := by
  obtain ⟨entries⟩ := table
  show (⟨put key value (put other value' entries)⟩ : Table κ α) =
    ⟨put other value' (put key value entries)⟩
  congr 1
  induction entries with
  | nil => simp [keys] at h
  | cons entry rest ih =>
      by_cases hkey : entry.1 = key
      · have hother : ¬ key = other := fun heq ↦ hne heq.symm
        simp [put, hkey, hother]
      · have hrest : key ∈ (⟨rest⟩ : Table κ α).keys := by
          simpa [keys, Ne.symm hkey] using h
        by_cases hother : entry.1 = other
        · simp [put, hother, hne]
        · simp [put, hkey, hother, ih hrest]

/-- A value under a key that is there may be stored before or after entries with other keys. -/
theorem foldl_insert {key : κ} {entries : List (κ × α)} (hentries : key ∉ entries.map (·.1))
    {table : Table κ α} (h : key ∈ table.keys) (value : α) :
    (entries.foldl (fun table entry ↦ table.insert entry.1 entry.2) table).insert key value =
      entries.foldl (fun table entry ↦ table.insert entry.1 entry.2) (table.insert key value) := by
  induction entries generalizing table with
  | nil => rfl
  | cons entry rest ih =>
      rw [List.map_cons, List.mem_cons, not_or] at hentries
      have hkey : key ∈ (table.insert entry.1 entry.2).keys := mem_keys_insert.2 (Or.inr h)
      rw [List.foldl_cons, List.foldl_cons, ih hentries.2 hkey,
        insert_comm h (Ne.symm hentries.1)]

/-- It does not matter whether a value is stored in the other table before, or in the result. -/
theorem update_insert (table : Table κ α) {other : Table κ α} (h : other.keys.Nodup) (key : κ)
    (value : α) :
    table.update (other.insert key value) = (table.update other).insert key value := by
  obtain ⟨entries⟩ := other
  show (put key value entries).foldl (fun table entry ↦ table.insert entry.1 entry.2) table =
    (entries.foldl (fun table entry ↦ table.insert entry.1 entry.2) table).insert key value
  induction entries generalizing table with
  | nil => rfl
  | cons entry rest ih =>
      rw [keys, List.map_cons, List.nodup_cons] at h
      by_cases hkey : entry.1 = key
      · -- the old value is stored and replaced at once, and no entry behind it has its key
        have hstored : key ∈ (table.insert key entry.2).keys :=
          mem_keys_iff.2 ⟨entry.2, get?_insert_self _ _ _⟩
        rw [put, if_pos hkey, List.foldl_cons, List.foldl_cons, hkey,
          foldl_insert (hkey ▸ h.1) hstored, insert_insert]
      · rw [put, if_neg hkey, List.foldl_cons, List.foldl_cons, ih _ h.2]

/-- The keys that were there keep their places, and the new ones follow in their own order. -/
theorem keys_update (table : Table κ α) {other : Table κ α} (h : other.keys.Nodup) :
    (table.update other).keys = table.keys ++ other.keys.filter (· ∉ table.keys) := by
  obtain ⟨entries⟩ := other
  show (entries.foldl (fun table entry ↦ table.insert entry.1 entry.2) table).keys =
    table.keys ++ (entries.map (·.1)).filter (· ∉ table.keys)
  induction entries generalizing table with
  | nil => simp
  | cons entry rest ih =>
      rw [keys, List.map_cons, List.nodup_cons] at h
      rw [List.foldl_cons, ih _ h.2, keys_insert, List.map_cons]
      by_cases hkey : entry.1 ∈ table.keys
      · simp [hkey]
      · -- the key is new here, and no entry behind this one has it
        have hrest : (rest.map (·.1)).filter (· ∉ table.keys ++ [entry.1]) =
            (rest.map (·.1)).filter (· ∉ table.keys) := by
          apply List.filter_congr
          intro key hmem
          have hne : key ≠ entry.1 := fun heq ↦ h.1 (heq ▸ hmem)
          simp [hne]
        rw [if_neg hkey, hrest, List.filter_cons_of_pos (by simpa using hkey), List.append_assoc,
          List.singleton_append]

/-- The value under a key is that of the other table, if it has one. -/
theorem get?_update (table : Table κ α) {other : Table κ α} (h : other.keys.Nodup) (key : κ) :
    (table.update other).get? key = (other.get? key).or (table.get? key) := by
  obtain ⟨entries⟩ := other
  show (entries.foldl (fun table entry ↦ table.insert entry.1 entry.2) table).get? key = _
  induction entries generalizing table with
  | nil => simp [get?]
  | cons entry rest ih =>
      rw [keys, List.map_cons, List.nodup_cons] at h
      rw [List.foldl_cons, ih _ h.2]
      by_cases hkey : entry.1 = key
      · have hrest : (⟨rest⟩ : Table κ α).get? key = none := by
          by_contra hsome
          obtain ⟨value, hvalue⟩ := Option.ne_none_iff_exists'.1 hsome
          exact h.1 (hkey ▸ mem_keys_iff.2 ⟨value, hvalue⟩)
        rw [hrest, hkey, get?_insert_self]
        simp [get?, hkey]
      · rw [get?_insert_of_ne _ _ (Ne.symm hkey)]
        simp [get?, hkey]

end ClassDiagram.Table
