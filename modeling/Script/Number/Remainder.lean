/-
# Script.Number.Remainder -- what is left after whole divisions

`remainder x y` is the exact `x - n · y`, where `n` is the quotient without its
fraction: it has the sign of `x`, also when it is zero, and is nearer to zero than
`y`.  No rounding happens, because the result needs no more binary places than the
operand with the smaller exponent has.  Nothing is left to divide an infinite `x` by, nor any
`x` by zero: these are not-a-number.  An infinite `y` leaves `x` as it is.
-/
import Script.Number.Binary

namespace Script.Number

set_option autoImplicit false

namespace Parts

/-- The remainder of what two doubles stand for. -/
def remainder : Parts → Parts → Parts
  | .finite negative m q, .finite _ m' q' =>
      if m' = 0 then .notANumber
      else
        let e := min q q'
        .finite negative (m * pow2 (q - e).toNat % (m' * pow2 (q' - e).toNat)) e
  | .finite negative m q, .infinite _ => .finite negative m q
  | _, _ => .notANumber

end Parts

/-- The remainder of truncated division. -/
def remainder (x y : Float) : Float :=
  ((Parts.ofFloat x).remainder (Parts.ofFloat y)).pack

end Script.Number
