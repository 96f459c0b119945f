/-
# Script.Proofs.Dict -- dictionaries as ordered maps

What a dictionary has come to by insertions can be read off the list of these.  Its keys are those
inserted, each once, in the order in which they first came (`keys_ofList`); a key leads to what was
inserted under it last (`find?_ofList`); and the index has the place of each key among the keys and
nothing else (`index_eq_idxOf?`).
-/
import Mathlib.Data.Finset.Card
import Mathlib.Data.List.Nodup
import Script.Dict

namespace Script.Dict

set_option autoImplicit false

variable {α : Type}

/-- The keys in order. -/
def keys (d : Dict α) : List String :=
  d.toList.map Prod.fst

theorem size_eq_length_keys (d : Dict α) : d.size = d.keys.length := by
  rw [keys, List.length_map, toList, Array.length_toList, size]

/-- The index has the place of each key. -/
theorem index_eq_some_iff {d : Dict α} {key : String} {slot : Nat} :
    d.index[key]? = some slot ↔ d.keys[slot]? = some key := by
  rw [d.indexed, keys, toList, List.getElem?_map, Array.getElem?_toList]

theorem mem_keys_iff {d : Dict α} {key : String} : key ∈ d.keys ↔ (d.find? key).isSome := by
  simp [keys, Option.isSome_iff_exists, find?_eq_some_iff]

/-- No two entries have one key. -/
theorem nodup_keys (d : Dict α) : d.keys.Nodup := by
  refine List.nodup_iff_getElem?_ne_getElem?.2 fun i j before inside same => ?_
  have first : d.index[d.keys[j]]? = some i :=
    index_eq_some_iff.2 (same.trans (List.getElem?_eq_getElem inside))
  have second : d.index[d.keys[j]]? = some j :=
    index_eq_some_iff.2 (List.getElem?_eq_getElem inside)
  rw [first] at second
  exact before.ne (Option.some.inj second)

/-- Dictionaries with the same keys have as many entries. -/
theorem size_eq_of_mem_keys_iff {β : Type} {d : Dict α} {e : Dict β}
    (same : ∀ key, key ∈ d.keys ↔ key ∈ e.keys) : d.size = e.size := by
  rw [size_eq_length_keys, size_eq_length_keys]
  exact ((List.perm_ext_iff_of_nodup d.nodup_keys e.nodup_keys).2 same).length_eq

/-- One of two dictionaries with as many entries that has all keys of the other has no more. -/
theorem mem_keys_iff_of_subset {β : Type} {d : Dict α} {e : Dict β} (size : d.size = e.size)
    (all : ∀ key ∈ d.keys, key ∈ e.keys) (key : String) : key ∈ d.keys ↔ key ∈ e.keys := by
  have few : e.keys.length ≤ d.keys.length := by
    rw [← size_eq_length_keys, ← size_eq_length_keys, size]
  exact ((List.subperm_of_subset d.nodup_keys all).perm_of_length_le few).mem_iff

/-- The index has nothing but the places of the keys. -/
theorem index_eq_idxOf? (d : Dict α) (key : String) : d.index[key]? = d.keys.idxOf? key := by
  cases found : d.keys.idxOf? key with
  | none =>
      have missing := List.idxOf?_eq_none_iff.1 found
      refine Option.eq_none_iff_forall_ne_some.2 fun slot there => missing ?_
      exact List.mem_of_getElem? (index_eq_some_iff.1 there)
  | some slot =>
      obtain ⟨inside, here, -⟩ := List.findIdx?_eq_some_iff_getElem.1 found
      rw [index_eq_some_iff, List.getElem?_eq_getElem inside, eq_of_beq here]

/-- A key that is there keeps its place, and a new one comes last. -/
theorem keys_insert (d : Dict α) (key : String) (value : α) :
    (d.insert key value).keys = if key ∈ d.keys then d.keys else d.keys ++ [key] := by
  rcases d.toList_insert key value with ⟨slot, old, there, written⟩ | ⟨new, written⟩
  · have member : key ∈ d.keys := List.mem_map.2 ⟨(key, old), List.mem_of_getElem? there, rfl⟩
    have same : d.keys[slot]? = some key := by simp [keys, there]
    obtain ⟨inside, stored⟩ := List.getElem?_eq_some_iff.1 same
    rw [if_pos member, keys, written, List.map_set]
    exact (congrArg _ stored.symm).trans (List.set_getElem_self inside)
  · have missing : key ∉ d.keys := by simp [mem_keys_iff, new]
    rw [if_neg missing, keys, written, List.map_append]
    rfl

/-! ## Insertions into a new dictionary -/

theorem ofList_concat (pairs : List (String × α)) (pair : String × α) :
    ofList (pairs ++ [pair]) = (ofList pairs).insert pair.1 pair.2 := by
  rw [ofList, List.foldl_append]
  rfl

/-- Every entry was inserted. -/
theorem mem_of_mem_ofList {pairs : List (String × α)} {entry : String × α}
    (member : entry ∈ (ofList pairs).toList) : entry ∈ pairs := by
  induction pairs using List.reverseRecOn with
  | nil => exact member
  | append_singleton pairs pair ih =>
      rw [ofList_concat] at member
      rw [List.mem_append, List.mem_singleton]
      exact (mem_of_mem_insert member).imp_left ih

/-- A key leads to what was inserted under it last. -/
theorem find?_ofList (pairs : List (String × α)) (key : String) :
    (ofList pairs).find? key = pairs.reverse.lookup key := by
  induction pairs using List.reverseRecOn with
  | nil => exact find?_empty key
  | append_singleton pairs pair ih =>
      obtain ⟨last, value⟩ := pair
      rw [ofList_concat, find?_insert, ih, List.reverse_concat, List.lookup_cons]
      by_cases same : key = last
      · simp [same]
      · simp [same, beq_false_of_ne same]

/-- The keys are those inserted, in the order in which each came first. -/
theorem keys_ofList (pairs : List (String × α)) :
    (ofList pairs).keys = (pairs.map Prod.fst).eraseDups := by
  induction pairs using List.reverseRecOn with
  | nil => rfl
  | append_singleton pairs pair ih =>
      rw [ofList_concat, keys_insert, ih, List.map_append, List.eraseDups_append,
        List.map_singleton, List.removeAll, List.filter_singleton]
      by_cases known : pair.1 ∈ pairs.map Prod.fst
      · rw [if_pos (List.mem_eraseDups.2 known)]
        simp [known]
      · rw [if_neg (mt List.mem_eraseDups.1 known)]
        simp [known, List.eraseDups_cons]

/-- There is an entry for each of the keys inserted. -/
theorem size_ofList (pairs : List (String × α)) :
    (ofList pairs).size = (pairs.map Prod.fst).toFinset.card := by
  rw [size_eq_length_keys, ← List.toFinset_card_of_nodup (nodup_keys _), keys_ofList]
  congr 1
  ext key
  simp

end Script.Dict
