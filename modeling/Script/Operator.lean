/-
# Script.Operator -- what the operators compute

Arithmetic takes numbers; a string of one character stands for the character's code
point.  `+` joins two lists into a new one, and a string with the text of anything.
Strings are ordered character by character when both sides are strings; in all other
comparisons both sides are numbers, and one with not-a-number does not hold.  `|` and `&` look at
both sides and give a boolean.
-/
import Script.Number.Remainder
import Script.Number.Rounding
import Script.Store.Equality
import Script.Store.Render
import Script.Syntax.Tree

namespace Script

set_option autoImplicit false

/-- What an operator gives: a value, or the items of a new list. -/
inductive Product where
  | value (value : Value)
  | items (items : Array Value)

namespace Store

/-- Makes the list that a product asks for. -/
def realize (s : Store) : Product → Value × Store
  | .value value => (value, s)
  | .items items => s.newList items

/-- The number a value stands for in arithmetic. -/
def coerce (s : Store) (v : Value) : Attempt Float :=
  match v with
  | .number x => .ok x
  | .string text =>
      match text.toList with
      | [c] => .ok (Number.ofNat c.toNat)
      | _ => .fail (.notCoercible text)
  | v => do .fail (.notANumber (← s.render v))

/-- The number an operation makes of two operands, the left one looked at first. -/
def arithmetic (s : Store) (f : Float → Float → Float) (v w : Value) : Attempt Value := do
  let x ← s.coerce v
  let y ← s.coerce w
  .ok (.number (f x y))

/-- Compares two strings with `texts`, anything else as numbers with `numbers`. -/
def compare (s : Store) (texts : String → String → Bool) (numbers : Float → Float → Bool)
    (v w : Value) : Attempt Value :=
  match v, w with
  | .string a, .string b => .ok (.bool (texts a b))
  | v, w => do
      let x ← s.coerce v
      let y ← s.coerce w
      .ok (.bool (numbers x y))

/-- The sum of two values that are not both lists. -/
def plus (s : Store) (v w : Value) : Attempt Value :=
  match v, w with
  | .string _, _ | _, .string _ => do
      let a ← s.render v
      let b ← s.render w
      .ok (.string (a ++ b))
  | v, w => s.arithmetic (· + ·) v w

/-- The value of an operator other than `+` between lists. -/
def binaryValue (s : Store) (op : BinaryOp) (v w : Value) : Attempt Value :=
  match op with
  | .or => .ok (.bool (s.truthy v || s.truthy w))
  | .and => .ok (.bool (s.truthy v && s.truthy w))
  | .equal => do .ok (.bool (← s.equal v w))
  | .notEqual => do .ok (.bool (!(← s.equal v w)))
  | .less => s.compare (fun a b => a < b) (fun x y => x < y) v w
  | .lessEqual => s.compare (fun a b => !decide (b < a)) (fun x y => x ≤ y) v w
  | .greater => s.compare (fun a b => b < a) (fun x y => y < x) v w
  | .greaterEqual => s.compare (fun a b => !decide (a < b)) (fun x y => y ≤ x) v w
  | .add => s.plus v w
  | .subtract => s.arithmetic (· - ·) v w
  | .multiply => s.arithmetic (· * ·) v w
  | .divide => s.arithmetic (· / ·) v w
  | .remainder => s.arithmetic Number.remainder v w

/-- What an operator gives; two lists joined are the items of a list to be made. -/
def binary (s : Store) (op : BinaryOp) (v w : Value) : Attempt Product :=
  match op, v, w with
  | .add, .list a, .list b => .ok (.items (s.items a ++ s.items b))
  | op, v, w => do .ok (.value (← s.binaryValue op v w))

def unary (s : Store) (op : UnaryOp) (v : Value) : Attempt Value :=
  match op with
  | .negate => do .ok (.number (-(← s.coerce v)))
  | .not => .ok (.bool (!s.truthy v))

end Store

end Script
