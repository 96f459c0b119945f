/-
# Script.Value -- what a program computes with

Lists and dictionaries live in a store and are shared: a value holds only their
address, so every holder sees a change.  All other values are what they are.
-/
import Script.TypeTag

namespace Script

set_option autoImplicit false

inductive Value where
  | null
  | bool (value : Bool)
  | number (value : Float)
  | string (text : String)
  | list (address : Nat)
  | dict (address : Nat)
  | function (name : String)
  | typeName (tag : TypeTag)
deriving DecidableEq, Inhabited

namespace Value

/-- The kind of the value; the name of a type has none. -/
def tag? : Value → Option TypeTag
  | null => some .null
  | bool _ => some .boolean
  | number _ => some .number
  | string _ => some .string
  | list _ => some .list
  | dict _ => some .dict
  | function _ => some .function
  | typeName _ => none

/-- The name of the value's kind in messages. -/
def kindName (v : Value) : String :=
  match v.tag? with
  | some tag => tag.name
  | none => "TYPE"

/-- The address of a list or a dictionary. -/
def address? : Value → Option Nat
  | list a | dict a => some a
  | _ => none

end Value

end Script
