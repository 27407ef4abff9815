import Mathlib.Data.List.Induction
import Mathlib.Data.List.Nodup
import RelayDescriptor.OrderedMap

/-!
# Maps and their entries

In a map without repeated keys, looking a key up is finding its entry.  Writing entries
one after the other gives such a map.  Entries with different keys are the map itself;
of entries with one key the last one is left.
-/

namespace RelayDescriptor

namespace OrderedMap

variable {κ α : Type} [DecidableEq κ] {entries map : OrderedMap κ α} {key : κ}

theorem find?_eq_none_iff : find? key map = none ↔ key ∉ keys map := by
  rw [← isSome_find?_iff, Option.not_isSome_iff_eq_none]

theorem mem_of_find?_eq_some {value : α} (found : find? key map = some value) :
    (key, value) ∈ map := by
  induction map with
  | nil => cases found
  | cons entry entries induction =>
      obtain ⟨first, firstValue⟩ := entry
      rw [find?] at found
      split at found
      next same =>
        cases found
        rw [same]
        exact List.mem_cons_self
      next => exact List.mem_cons_of_mem _ (induction found)

theorem find?_of_mem {value : α} (distinct : (keys map).Nodup) (member : (key, value) ∈ map) :
    find? key map = some value := by
  induction map with
  | nil => cases member
  | cons entry entries induction =>
      obtain ⟨absent, distinct⟩ := List.nodup_cons.mp distinct
      rcases List.mem_cons.mp member with rfl | later
      · simp [find?]
      · have different : entry.1 ≠ key := by
          intro same
          exact absent (same ▸ List.mem_map_of_mem (f := Prod.fst) later)
        rw [find?, if_neg different]
        exact induction distinct later

theorem insertAll_cons (entry : κ × α) :
    insertAll map (entry :: entries) = insertAll (insert entry.1 entry.2 map) entries := rfl

theorem insertAll_of_nodup (distinct : (keys (map ++ entries)).Nodup) :
    insertAll map entries = map ++ entries := by
  induction entries generalizing map with
  | nil => exact (List.append_nil map).symm
  | cons entry entries induction =>
      have absent : entry.1 ∉ keys map := by
        intro member
        rw [keys, List.map_append, List.nodup_append] at distinct
        exact distinct.2.2 entry.1 member entry.1 List.mem_cons_self rfl
      rw [List.append_cons] at distinct
      rw [insertAll_cons, insert_of_not_mem absent, induction distinct, ← List.append_cons]

theorem nodup_keys_insert (distinct : (keys map).Nodup) (key : κ) (value : α) :
    (keys (insert key value map)).Nodup := by
  by_cases member : key ∈ keys map
  · rw [keys_insert_of_mem member]
    exact distinct
  · rw [insert_of_not_mem member, keys, List.map_append]
    exact List.nodup_append.mpr ⟨distinct, List.nodup_singleton key, by
      rintro other inside _ same rfl
      rw [List.mem_singleton.mp same] at inside
      exact member inside⟩

theorem nodup_keys_insertAll (distinct : (keys map).Nodup) (entries : List (κ × α)) :
    (keys (insertAll map entries)).Nodup := by
  induction entries generalizing map with
  | nil => exact distinct
  | cons entry entries induction => exact induction (nodup_keys_insert distinct entry.1 entry.2)

/-- No key is there twice. -/
theorem nodup_keys_ofList (entries : List (κ × α)) : (keys (ofList entries)).Nodup := by
  apply nodup_keys_insertAll
  exact List.nodup_nil

/-- Entries with different keys are kept as they are. -/
theorem ofList_of_nodup (distinct : (keys entries).Nodup) : ofList entries = entries :=
  insertAll_of_nodup distinct

/-- Of entries with one key the last one is kept. -/
theorem ofList_of_forall_eq (same : ∀ entry ∈ entries, entry.1 = key) :
    ofList entries = entries.getLast?.toList := by
  induction entries using List.reverseRecOn with
  | nil => rfl
  | append_singleton entries last induction =>
      have before := induction fun entry member => same entry (List.mem_append_left [last] member)
      have here : last.1 = key := same last (by simp)
      have step : ofList (entries ++ [last]) = insert last.1 last.2 (ofList entries) :=
        List.foldl_append
      rw [step, before, List.getLast?_concat]
      cases found : entries.getLast? with
      | none => rfl
      | some other =>
          have there : other.1 = key :=
            same other (List.mem_append_left [last] (List.mem_of_getLast? found))
          rw [Option.toList_some, insert, if_pos (there.trans here.symm)]
          rfl

end OrderedMap

end RelayDescriptor
