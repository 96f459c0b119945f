/-
# Script.Dict -- dictionaries that remember the order of their keys

Entries stand in the order in which their keys were first inserted; writing to a key
that is there keeps its place.  An index maps each key to the slot of its entry, and
to no other (`indexed`): so no two entries have one key.
-/
import Std.Data.HashMap

namespace Script

set_option autoImplicit false

structure Dict (α : Type) where
  entries : Array (String × α)
  index : Std.HashMap String Nat
  /-- The index leads to the entry of a key, and only there. -/
  indexed : ∀ (key : String) (slot : Nat),
    index[key]? = some slot ↔ entries[slot]?.map Prod.fst = some key

namespace Dict

variable {α : Type}

def empty : Dict α where
  entries := #[]
  index := ∅
  indexed := by simp

instance : Inhabited (Dict α) := ⟨empty⟩

def size (d : Dict α) : Nat :=
  d.entries.size

def isEmpty (d : Dict α) : Bool :=
  d.entries.isEmpty

/-- The entries in order. -/
def toList (d : Dict α) : List (String × α) :=
  d.entries.toList

def find? (d : Dict α) (key : String) : Option α :=
  d.index[key]?.bind fun slot => d.entries[slot]?.map (·.2)

/-- A key that the index does not know belongs to no entry. -/
theorem key_ne_of_index {d : Dict α} {key : String} (new : d.index[key]? = none) (slot : Nat) :
    d.entries[slot]?.map Prod.fst ≠ some key := by
  intro found
  rw [(d.indexed key slot).2 found] at new
  cases new

/-- The dictionary with another value in a slot. -/
def overwrite (d : Dict α) (slot : Nat) (value : α) : Dict α where
  entries := d.entries.modify slot fun entry => (entry.1, value)
  index := d.index
  indexed := by
    intro key other
    rw [d.indexed, Array.getElem?_modify]
    by_cases same : slot = other
    · simp only [same, if_true, Option.map_map]
      rfl
    · rw [if_neg same]

/-- The dictionary with a further entry, under a key that it does not have. -/
def append (d : Dict α) (key : String) (value : α) (new : d.index[key]? = none) : Dict α where
  entries := d.entries.push (key, value)
  index := d.index.insert key d.entries.size
  indexed := by
    intro other slot
    rw [Std.HashMap.getElem?_insert, Array.getElem?_push]
    by_cases same : key = other
    · subst same
      by_cases last : slot = d.entries.size
      · simp [last]
      · simp only [beq_self_eq_true, if_true, Option.some.injEq, Ne.symm last, last, if_false,
          false_iff]
        exact key_ne_of_index new slot
    · rw [if_neg (by simpa using same), d.indexed]
      by_cases last : slot = d.entries.size
      · simp [last, same]
      · rw [if_neg last]

/-- The dictionary with `value` under `key`, in the key's place or, for a new key, at the end. -/
def insert (d : Dict α) (key : String) (value : α) : Dict α :=
  match new : d.index[key]? with
  | some slot => d.overwrite slot value
  | none => d.append key value new

/-- The dictionary that inserting the pairs one after the other makes. -/
def ofList (pairs : List (String × α)) : Dict α :=
  pairs.foldl (fun d pair => d.insert pair.1 pair.2) empty

/-! ## What a key leads to -/

theorem find?_empty (key : String) : (empty : Dict α).find? key = none := by
  simp [find?, empty]

theorem find?_overwrite {d : Dict α} {key : String} {slot : Nat} (found : d.index[key]? = some slot)
    (value : α) (other : String) :
    (d.overwrite slot value).find? other = if other = key then some value else d.find? other := by
  have place := (d.indexed key slot).1 found
  simp only [find?, overwrite, Array.getElem?_modify]
  by_cases same : other = key
  · obtain ⟨entry, there, -⟩ := Option.map_eq_some_iff.1 place
    simp [same, found, there]
  · rw [if_neg same]
    refine Option.bind_congr fun slot' found' => ?_
    have elsewhere : slot ≠ slot' := by
      rintro rfl
      have place' := (d.indexed other slot).1 found'
      exact same (Option.some.inj (place'.symm.trans place))
    rw [if_neg elsewhere]

theorem find?_append {d : Dict α} {key : String} (new : d.index[key]? = none) (value : α)
    (other : String) :
    (d.append key value new).find? other = if other = key then some value else d.find? other := by
  simp only [find?, append, Std.HashMap.getElem?_insert, Array.getElem?_push]
  by_cases same : other = key
  · simp [same]
  · rw [if_neg (by simpa using Ne.symm same), if_neg same]
    refine Option.bind_congr fun slot found => ?_
    have place := (d.indexed other slot).1 found
    have inside : slot ≠ d.entries.size := by
      rintro rfl
      simp at place
    rw [if_neg inside]

/-- Inserting changes what one key leads to and nothing else. -/
theorem find?_insert (d : Dict α) (key other : String) (value : α) :
    (d.insert key value).find? other = if other = key then some value else d.find? other := by
  unfold insert
  split
  · rename_i slot found
    exact find?_overwrite found value other
  · rename_i new
    exact find?_append new value other

/-- What a key leads to stands in an entry with that key. -/
theorem find?_eq_some_iff {d : Dict α} {key : String} {value : α} :
    d.find? key = some value ↔ (key, value) ∈ d.toList := by
  simp only [find?, Option.bind_eq_some_iff, d.indexed, toList, List.mem_iff_getElem?,
    Array.getElem?_toList]
  constructor
  · rintro ⟨slot, place, found⟩
    obtain ⟨⟨other, stored⟩, there, rfl⟩ := Option.map_eq_some_iff.1 found
    rw [there] at place
    cases place
    exact ⟨slot, there⟩
  · rintro ⟨slot, there⟩
    exact ⟨slot, by simp [there], by simp [there]⟩

/-- A key that is there keeps its place when it is written, a new one comes last. -/
theorem toList_insert (d : Dict α) (key : String) (value : α) :
    (∃ slot old, d.toList[slot]? = some (key, old) ∧
        (d.insert key value).toList = d.toList.set slot (key, value)) ∨
      d.find? key = none ∧ (d.insert key value).toList = d.toList ++ [(key, value)] := by
  unfold insert
  split
  · rename_i slot found
    have place := (d.indexed key slot).1 found
    obtain ⟨⟨other, old⟩, there, rfl⟩ := Option.map_eq_some_iff.1 place
    refine .inl ⟨slot, old, by simp [toList, there], List.ext_getElem? fun k => ?_⟩
    obtain ⟨inside, stored⟩ := Array.getElem?_eq_some_iff.1 there
    by_cases same : slot = k
    · subst same
      simp [toList, overwrite, inside, stored]
    · simp [toList, overwrite, same]
  · rename_i new
    exact .inr ⟨by simp [find?, new], by simp [toList, append]⟩

/-- Every entry behind an insertion was there before or is the new one. -/
theorem mem_of_mem_insert {d : Dict α} {key : String} {value : α} {entry : String × α}
    (member : entry ∈ (d.insert key value).toList) : entry ∈ d.toList ∨ entry = (key, value) := by
  rcases d.toList_insert key value with ⟨slot, old, -, written⟩ | ⟨-, written⟩
  · rw [written] at member
    exact List.mem_or_eq_of_mem_set member
  · simpa [written] using member

end Dict

end Script
