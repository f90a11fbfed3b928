/-!
# Tables that keep their order

A table holds values under keys and lists them in the order in which the keys first came.
Storing a value under a key that is already there replaces the value and keeps its place.

`get?_insert_self` and `get?_insert_of_ne` say what a look-up finds after a store, and
`keys_insert` says what a store does to the order of the keys.
-/

namespace ClassDiagram

/-- Values under keys, in the order in which the keys first came. -/
structure Table (κ α : Type) where
  entries : List (κ × α) := []
deriving DecidableEq, Repr

namespace Table

variable {κ α : Type}

/-- The keys, in order. -/
def keys (table : Table κ α) : List κ := table.entries.map (·.1)

/-- The values, in the order of their keys. -/
def values (table : Table κ α) : List α := table.entries.map (·.2)

/-- The number of keys. -/
def size (table : Table κ α) : Nat := table.entries.length

variable [DecidableEq κ]

/-- The value under a key. -/
def get? (table : Table κ α) (key : κ) : Option α :=
  (table.entries.find? (fun entry ↦ entry.1 == key)).map (·.2)

/-- Whether there is a value under a key. -/
def contains (table : Table κ α) (key : κ) : Bool := (table.get? key).isSome

/-- The entries after a value is stored under a key. -/
def put (key : κ) (value : α) : List (κ × α) → List (κ × α)
  | [] => [(key, value)]
  | entry :: rest =>
    if entry.1 = key then (key, value) :: rest else entry :: put key value rest

/-- Stores a value under a key: in the place of the old value, or else at the end. -/
def insert (table : Table κ α) (key : κ) (value : α) : Table κ α :=
  ⟨put key value table.entries⟩

/-- Whether two tables hold equal values under the same keys, in whatever order. -/
def sameEntries [DecidableEq α] (left right : Table κ α) : Bool :=
  left.size == right.size &&
    left.entries.all (fun entry ↦ decide (right.get? entry.1 = some entry.2))

/-- A stored value is found under its key. -/
@[simp] theorem get?_insert_self (table : Table κ α) (key : κ) (value : α) :
    (table.insert key value).get? key = some value := by
  obtain ⟨entries⟩ := table
  simp only [get?, insert]
  induction entries with
  | nil => simp [put]
  | cons entry rest ih =>
    by_cases h : entry.1 = key
    · simp [put, h]
    · simpa [put, h] using ih

/-- A store leaves the values under other keys alone. -/
theorem get?_insert_of_ne (table : Table κ α) {key other : κ} (value : α) (h : other ≠ key) :
    (table.insert key value).get? other = table.get? other := by
  obtain ⟨entries⟩ := table
  have hne : (key == other) = false := by simpa using fun e ↦ h e.symm
  simp only [get?, insert]
  induction entries with
  | nil => simp [put, hne]
  | cons entry rest ih =>
    by_cases he : entry.1 = key
    · simp [put, he, hne]
    · by_cases ho : entry.1 = other
      · simp [put, ho, h]
      · simpa [put, he, ho] using ih

/-- Storing under a key that is there leaves the keys alone. -/
theorem map_put_of_mem {key : κ} (value : α) {entries : List (κ × α)}
    (h : key ∈ entries.map (·.1)) : (put key value entries).map (·.1) = entries.map (·.1) := by
  induction entries with
  | nil => simp at h
  | cons entry rest ih =>
    by_cases he : entry.1 = key
    · simp [put, he]
    · rw [List.map_cons, List.mem_cons] at h
      rw [put, if_neg he, List.map_cons, ih (h.resolve_left fun e ↦ he e.symm), List.map_cons]

/-- Storing under a new key adds it at the end. -/
theorem map_put_of_not_mem {key : κ} (value : α) {entries : List (κ × α)}
    (h : key ∉ entries.map (·.1)) :
    (put key value entries).map (·.1) = entries.map (·.1) ++ [key] := by
  induction entries with
  | nil => simp [put]
  | cons entry rest ih =>
    rw [List.map_cons, List.mem_cons, not_or] at h
    rw [put, if_neg (fun e ↦ h.1 e.symm), List.map_cons, ih h.2, List.map_cons, List.cons_append]

/-- A store adds its key at the end, or leaves the keys alone if it is among them. -/
theorem keys_insert (table : Table κ α) (key : κ) (value : α) :
    (table.insert key value).keys =
      if key ∈ table.keys then table.keys else table.keys ++ [key] := by
  split
  · next h => exact map_put_of_mem value h
  · next h => exact map_put_of_not_mem value h

end Table

end ClassDiagram
