/-
# Script.Number.Whole -- the whole numbers among the doubles

`truncate?` is the whole number next to a double on the side of zero, `whole?` the
double itself when it is one.  Negative zero is the whole number zero; infinities
and not-a-number are none.
-/
import Script.Number.Binary

namespace Script.Number

set_option autoImplicit false

namespace Parts

/-- The whole number with a sign and a size. -/
def signed (negative : Bool) (size : Nat) : Int :=
  if negative then -size else size

/-- The number without its fraction. -/
def truncate? : Parts → Option Int
  | .finite negative m q => some (signed negative (m * pow2 q.toNat / pow2 (-q).toNat))
  | _ => none

/-- The number, when it has no fraction. -/
def whole? : Parts → Option Int
  | .finite negative m q =>
      if m % pow2 (-q).toNat = 0 then some (signed negative (m * pow2 q.toNat / pow2 (-q).toNat))
      else none
  | _ => none

end Parts

def truncate? (x : Float) : Option Int :=
  (Parts.ofFloat x).truncate?

def whole? (x : Float) : Option Int :=
  (Parts.ofFloat x).whole?

end Script.Number
