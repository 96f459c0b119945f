/-
# Script.Store.Equality -- when two values are equal

Values of different kinds differ.  Two lists are equal when they are the same list
or have as many items, equal one by one; two dictionaries when they are the same or
have as many entries and equal values under equal keys, in any order.  Numbers
compare as numbers: the two zeros are equal, and not-a-number equals nothing.

A chain of comparisons, each inside the one before, that is longer than there are pairs of
containers has met some pair twice, and so would go on for ever.
-/
import Script.Attempt
import Script.Store

namespace Script.Store

set_option autoImplicit false

/-- Whether two values are equal, comparing at most `depth` pairs of containers inside one
another. -/
def equalWithin (s : Store) (depth : Nat) (v w : Value) : Attempt Bool :=
  match v, w with
  | .null, .null => .ok true
  | .bool a, .bool b => .ok (a == b)
  | .number x, .number y => .ok (x == y)
  | .string a, .string b => .ok (a == b)
  | .list a, .list b =>
      if a = b then .ok true
      else
        match depth with
        | 0 => .error .endless
        | depth + 1 =>
            let xs := s.items a
            let ys := s.items b
            if xs.size = ys.size then
              (xs.toList.zip ys.toList).allM fun pair => s.equalWithin depth pair.1 pair.2
            else .ok false
  | .dict a, .dict b =>
      if a = b then .ok true
      else
        match depth with
        | 0 => .error .endless
        | depth + 1 =>
            let d := s.entries a
            let e := s.entries b
            if d.size = e.size then
              d.toList.allM fun entry =>
                match e.find? entry.1 with
                | some value => s.equalWithin depth value entry.2
                | none => .ok false
            else .ok false
  | .function a, .function b => .ok (a == b)
  | .typeName a, .typeName b => .ok (a == b)
  | _, _ => .ok false

/-- Whether two values are equal. -/
def equal (s : Store) (v w : Value) : Attempt Bool :=
  s.equalWithin (s.size * s.size + 1) v w

end Script.Store
