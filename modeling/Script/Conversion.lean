/-
# Script.Conversion -- size, text and kind of a value

These are the answers of the functions `size`, `toString` and `typeOf`.  A number
is turned into the character it is the code point of, its fraction dropped, if that is at most
65535; every other value into its text.
-/
import Script.Number.Whole
import Script.Store.Render

namespace Script

set_option autoImplicit false

/-- The character with a code point of at most 65535. -/
def characterOf? (code : Int) : Option Char :=
  if 0 ≤ code ∧ code ≤ 65535 then
    if h : code.toNat.isValidChar then some (Char.ofNatAux code.toNat h) else none
  else none

namespace Store

/-- The number of characters, items or entries. -/
def sizeOf (s : Store) (v : Value) : Attempt Nat :=
  match v with
  | .string text => .ok text.length
  | .list a => .ok (s.items a).size
  | .dict a => .ok (s.entries a).size
  | _ => .fail (.invalidArgument "size" "string, list, or map")

/-- The text of a value, or the character of a number. -/
def textOf (s : Store) (v : Value) : Attempt String :=
  match v with
  | .number x =>
      match (Number.truncate? x).bind characterOf? with
      | some c => .ok (String.singleton c)
      | none => .fail (.charCodeOutOfRange x)
  | v => s.render v

/-- The kind of a value. -/
def typeOf (s : Store) (v : Value) : Attempt TypeTag :=
  match v.tag? with
  | some tag => .ok tag
  | none => do .fail (.unknownType (← s.render v))

end Store

end Script
