/-!
# Ordered maps

A map that remembers the order in which its keys first came.  Writing a key again
replaces its value and keeps its place.
-/

namespace RelayDescriptor

/-- The entries of a map, in the order in which their keys were first written. -/
abbrev OrderedMap (κ α : Type) := List (κ × α)

namespace OrderedMap

variable {κ α : Type} [DecidableEq κ]

/-- The value of a key. -/
def find? (key : κ) : OrderedMap κ α → Option α
  | [] => none
  | (k, a) :: entries => if k = key then some a else find? key entries

/-- The map with a key written. -/
def insert (key : κ) (value : α) : OrderedMap κ α → OrderedMap κ α
  | [] => [(key, value)]
  | (k, a) :: entries =>
      if k = key then (key, value) :: entries else (k, a) :: insert key value entries

/-- The map with all the given entries written, in their order. -/
def insertAll (map : OrderedMap κ α) (entries : List (κ × α)) : OrderedMap κ α :=
  entries.foldl (fun result (key, value) => insert key value result) map

/-- The map that arises from writing entries one after the other. -/
def ofList (entries : List (κ × α)) : OrderedMap κ α := insertAll [] entries

/-- The keys in order. -/
def keys (map : OrderedMap κ α) : List κ := map.map Prod.fst

@[simp] theorem find?_nil (key : κ) : find? key ([] : OrderedMap κ α) = none := rfl

theorem find?_insert_self (key : κ) (value : α) (map : OrderedMap κ α) :
    find? key (insert key value map) = some value := by
  induction map with
  | nil => simp [insert, find?]
  | cons entry entries induction =>
      obtain ⟨k, a⟩ := entry
      by_cases same : k = key
      · simp [insert, find?, same]
      · simp [insert, find?, same, induction]

theorem find?_insert_of_ne {key other : κ} (different : other ≠ key) (value : α)
    (map : OrderedMap κ α) : find? other (insert key value map) = find? other map := by
  induction map with
  | nil => simp [insert, find?, Ne.symm different]
  | cons entry entries induction =>
      obtain ⟨k, a⟩ := entry
      by_cases same : k = key
      · simp [insert, find?, same, Ne.symm different]
      · by_cases hit : k = other
        · subst hit
          simp [insert, find?, same]
        · simp [insert, find?, same, hit, induction]

/-- A key has a value if and only if it is among the keys. -/
theorem isSome_find?_iff {key : κ} {map : OrderedMap κ α} :
    (find? key map).isSome ↔ key ∈ keys map := by
  induction map with
  | nil => simp [find?, keys]
  | cons entry entries induction =>
      obtain ⟨k, a⟩ := entry
      by_cases same : k = key
      · simp [find?, keys, same]
      · simpa [find?, keys, same, Ne.symm same] using induction

/-- Writing a key that is there keeps all keys in their places. -/
theorem keys_insert_of_mem {key : κ} {map : OrderedMap κ α} (member : key ∈ keys map)
    (value : α) : keys (insert key value map) = keys map := by
  induction map with
  | nil => simp [keys] at member
  | cons entry entries induction =>
      obtain ⟨k, a⟩ := entry
      by_cases same : k = key
      · simp [insert, keys, same]
      · have later : key ∈ keys entries := by simpa [keys, Ne.symm same] using member
        simpa [insert, keys, same] using induction later

/-- Writing a new key puts it at the end. -/
theorem insert_of_not_mem {key : κ} {map : OrderedMap κ α} (absent : key ∉ keys map)
    (value : α) : insert key value map = map ++ [(key, value)] := by
  induction map with
  | nil => rfl
  | cons entry entries induction =>
      obtain ⟨k, a⟩ := entry
      simp only [keys, List.map_cons, List.mem_cons, not_or] at absent
      rw [insert, if_neg (Ne.symm absent.1), induction absent.2, List.cons_append]

end OrderedMap

end RelayDescriptor
