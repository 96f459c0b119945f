/-
# Script.Access -- reading and writing inside lists, dictionaries and strings

Lists and strings are indexed from zero by whole numbers; negative zero is zero, and
an index that is no whole number or lies outside is a fault.  A dictionary is
indexed by strings: a missing key reads as null, but is a fault where it is named as
a field.  Strings cannot be written.

While a list is written it is locked.  The only other look at it that a write can
take is to render the index for a message, and that stops the run dead if the list
is found there.
-/
import Script.Number.Whole
import Script.Store.Render

namespace Script

set_option autoImplicit false

/-- The slot an index stands for among `length`; `text` renders an index that is no number. -/
def slot (text : Value → Attempt String) (index : Value) (length : Nat) : Attempt Nat :=
  match index with
  | .number x =>
      match Number.whole? x with
      | some i =>
          if 0 ≤ i ∧ i < length then .ok i.toNat else .fail (.indexOutOfBounds x length)
      | none => .fail (.nonIntegerIndex x)
  | index => do .fail (.notANumber (← text index))

/-- What a write changes: a slot of a list, or the value under a key of a dictionary. -/
inductive Place where
  | item (address slot : Nat)
  | entry (address : Nat) (key : String)
deriving DecidableEq

namespace Store

/-- The key an index stands for. -/
def key (s : Store) (index : Value) : Attempt String :=
  match index with
  | .string text => .ok text
  | index => do .fail (.nonStringKey (← s.render index))

/-- Reads `target[index]`. -/
def indexGet (s : Store) (target index : Value) : Attempt Value :=
  match target with
  | .list a => do
      let items := s.items a
      let i ← slot s.render index items.size
      .ok (items[i]?.getD .null)
  | .string text => do
      let characters := text.toList
      let i ← slot s.render index characters.length
      .ok (.string (String.ofList characters[i]?.toList))
  | .dict a => do
      let k ← s.key index
      .ok (((s.entries a).find? k).getD .null)
  | target => .fail (.notIndexable target.kindName)

/-- The place that a write to `target[index]` changes. -/
def place (s : Store) (target index : Value) : Attempt Place :=
  match target with
  | .list a => do .ok (.item a (← slot (s.renderLocked a) index (s.items a).size))
  | .dict a => do .ok (.entry a (← s.key index))
  | target => .fail (.notIndexAssignable target.kindName)

/-- The store with `value` in a place. -/
def write (s : Store) (place : Place) (value : Value) : Store :=
  match place with
  | .item a i => s.setItem a i value
  | .entry a k => s.setEntry a k value

/-- Writes `target[index] = value`. -/
def indexSet (s : Store) (target index value : Value) : Attempt Store := do
  .ok (s.write (← s.place target index) value)

/-- Reads `target.name`. -/
def fieldGet (s : Store) (target : Value) (name : String) : Attempt Value :=
  match target with
  | .dict a =>
      match (s.entries a).find? name with
      | some value => .ok value
      | none => .fail (.missingKey name)
  | target => .fail (.notADict name target.kindName)

end Store

end Script
