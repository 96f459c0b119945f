/-
# Script.Store -- the lists and dictionaries of a run

A store holds every list and dictionary that was made, by its address.  Nothing is
ever taken away, so an address stays good.
-/
import Script.Dict
import Script.Value

namespace Script

set_option autoImplicit false

inductive Cell where
  | list (items : Array Value)
  | dict (entries : Dict Value)
deriving Inhabited

namespace Cell

/-- The values held by the cell, in order. -/
def values : Cell → List Value
  | list items => items.toList
  | dict entries => entries.toList.map (·.2)

end Cell

structure Store where
  cells : Array Cell
deriving Inhabited

namespace Store

def empty : Store := ⟨#[]⟩

def size (s : Store) : Nat :=
  s.cells.size

/-- The items of the list at an address. -/
def items (s : Store) (address : Nat) : Array Value :=
  match s.cells[address]? with
  | some (.list items) => items
  | _ => #[]

/-- The dictionary at an address. -/
def entries (s : Store) (address : Nat) : Dict Value :=
  match s.cells[address]? with
  | some (.dict entries) => entries
  | _ => .empty

/-- A new list. -/
def newList (s : Store) (items : Array Value) : Value × Store :=
  (.list s.size, ⟨s.cells.push (.list items)⟩)

/-- A new dictionary. -/
def newDict (s : Store) (entries : Dict Value) : Value × Store :=
  (.dict s.size, ⟨s.cells.push (.dict entries)⟩)

/-- The store with `value` in a slot of a list. -/
def setItem (s : Store) (address slot : Nat) (value : Value) : Store :=
  ⟨s.cells.modify address fun
    | .list items => .list (items.setIfInBounds slot value)
    | cell => cell⟩

/-- The store with `value` under a key of a dictionary. -/
def setEntry (s : Store) (address : Nat) (key : String) (value : Value) : Store :=
  ⟨s.cells.modify address fun
    | .dict entries => .dict (entries.insert key value)
    | cell => cell⟩

/-- Writing to a list changes the one slot of the one list. -/
theorem items_setItem (s : Store) (address slot other : Nat) (value : Value) :
    (s.setItem address slot value).items other =
      if other = address then (s.items address).setIfInBounds slot value else s.items other := by
  by_cases same : other = address
  · subst same
    cases found : s.cells[other]? with
    | none => simp [setItem, Store.items, Array.getElem?_modify, found]
    | some cell => cases cell <;> simp [setItem, Store.items, Array.getElem?_modify, found]
  · simp [setItem, Store.items, Array.getElem?_modify, same, Ne.symm same]

/-- Writing to a list changes no dictionary. -/
theorem entries_setItem (s : Store) (address slot other : Nat) (value : Value) :
    (s.setItem address slot value).entries other = s.entries other := by
  by_cases same : other = address
  · subst same
    cases found : s.cells[other]? with
    | none => simp [setItem, Store.entries, Array.getElem?_modify, found]
    | some cell => cases cell <;> simp [setItem, Store.entries, Array.getElem?_modify, found]
  · simp [setItem, Store.entries, Array.getElem?_modify, Ne.symm same]

/-- Writing to a dictionary changes no list. -/
theorem items_setEntry (s : Store) (address other : Nat) (key : String) (value : Value) :
    (s.setEntry address key value).items other = s.items other := by
  by_cases same : other = address
  · subst same
    cases found : s.cells[other]? with
    | none => simp [setEntry, Store.items, Array.getElem?_modify, found]
    | some cell => cases cell <;> simp [setEntry, Store.items, Array.getElem?_modify, found]
  · simp [setEntry, Store.items, Array.getElem?_modify, Ne.symm same]

/-- Writing to a dictionary that is there changes what the one key leads to. -/
theorem entries_setEntry {s : Store} {address : Nat} {entries : Dict Value}
    (there : s.cells[address]? = some (.dict entries)) (other : Nat) (key : String)
    (value : Value) :
    (s.setEntry address key value).entries other =
      if other = address then (s.entries address).insert key value else s.entries other := by
  by_cases same : other = address
  · subst same
    simp [setEntry, Store.entries, Array.getElem?_modify, there]
  · simp [setEntry, Store.entries, Array.getElem?_modify, same, Ne.symm same]

/-- Whether a value counts as true: null, false, zero and whatever is empty do not. -/
def truthy (s : Store) : Value → Bool
  | .null => false
  | .bool b => b
  | .number x => x != 0
  | .string text => !text.isEmpty
  | .list a => !(s.items a).isEmpty
  | .dict a => !(s.entries a).isEmpty
  | .function _ | .typeName _ => true

end Store

end Script
