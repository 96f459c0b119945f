/-
# Script.Number.Rounding -- the double nearest to a fraction

A double near a fraction has its last binary place where fifty-three bits reach down
to, or at the least exponent, whichever is higher.  The mantissa is the number of
such places in the fraction, rounded to the nearest whole number, and to the even
one when two are equally near.  A carry into a fifty-fourth bit moves the place up
by one.  What then lies beyond the largest double is infinite.
-/
import Script.Number.Binary

namespace Script.Number

set_option autoImplicit false

/-- The whole number nearest to `num / den`, the even one of two that are equally near. -/
def roundDiv (num den : Nat) : Nat :=
  let below := num / den
  let rest := num % den
  if 2 * rest < den then below
  else if den < 2 * rest then below + 1
  else below + below % 2

/-- The exponent of the highest binary place of a positive fraction. -/
def highestPlace (num den : Nat) : Int :=
  let guess : Int := (num.log2 : Int) - den.log2
  if den * pow2 guess.toNat ≤ num * pow2 (-guess).toNat then guess else guess - 1

/-- The exponent of the last binary place of a double near a positive fraction. -/
def lastPlace (num den : Nat) : Int :=
  max (highestPlace num den - 52) leastExponent

/-- The greatest exponent of a finite double. -/
def greatestExponent : Int := 971

namespace Parts

/-- The double with a mantissa of at most `2 ^ 53` places, unless that is too large. -/
def ofPlaces (negative : Bool) (m : Nat) (q : Int) : Parts :=
  let (m, q) := if m = pow2 53 then (pow2 52, q + 1) else (m, q)
  if greatestExponent < q then .infinite negative else .finite negative m q

/-- The double nearest to a fraction with a sign. -/
def nearest (negative : Bool) (num den : Nat) : Parts :=
  if num = 0 then .finite negative 0 leastExponent
  else
    let q := lastPlace num den
    ofPlaces negative (roundDiv (num * pow2 (-q).toNat) (den * pow2 q.toNat)) q

end Parts

/-- The double nearest to a whole number. -/
def ofNat (n : Nat) : Float :=
  (Parts.nearest false n 1).pack

end Script.Number
