/-
# Script.Number.Shortest -- the fewest decimal digits that name a double

The reals that round to the double `m · 2 ^ q` form an interval around it, its ends
included exactly when `m` is even.  A decimal `d · 10 ^ e` names the double when it
lies in that interval.  `shortest` tries one digit, then two, up to seventeen, which
always suffice.  On each decimal grid only the two neighbours of the value need a
test: a grid point of the interval has a neighbour of the value between itself and
the value.  Of two hits the nearer is taken, and the upper one when both are
equally near.

All arithmetic is exact, on natural numbers: the interval is measured in quarters
of the last binary place, because below a power of two the next double is only half
as far away.
-/
import Script.Number.Binary

namespace Script.Number

set_option autoImplicit false

/-- The decimal `digits · 10 ^ exponent`. -/
structure Decimal where
  digits : Nat
  exponent : Int
deriving DecidableEq, Repr, Inhabited

/-- The positive reals that round to one double, with the double itself: `low`, `value` and
`high` are numerators over the common denominator `den`. -/
structure Interval where
  low : Nat
  value : Nat
  high : Nat
  den : Nat
  closed : Bool
deriving DecidableEq, Repr

namespace Interval

/-- The interval of the double `m · 2 ^ q`, for `m` positive. -/
def ofBinary (m : Nat) (q : Int) : Interval :=
  let up := pow2 (q - 2).toNat
  { low := (4 * m - if m = pow2 52 then 1 else 2) * up
    value := 4 * m * up
    high := (4 * m + 2) * up
    den := pow2 (2 - q).toNat
    closed := m % 2 = 0 }

/-- The interval in units of `10 ^ e`. -/
def scale (i : Interval) (e : Int) : Interval :=
  let up := pow10 (-e).toNat
  { i with
    low := i.low * up
    value := i.value * up
    high := i.high * up
    den := i.den * pow10 e.toNat }

/-- Whether the whole number `d` lies in the interval. -/
def holds (i : Interval) (d : Nat) : Bool :=
  if i.closed then i.low ≤ d * i.den && d * i.den ≤ i.high
  else i.low < d * i.den && d * i.den < i.high

/-- The whole number of the interval nearest to its value, the upper of two that are equally
near. -/
def nearest? (i : Interval) : Option Nat :=
  let below := i.value / i.den
  if i.holds below then
    if i.holds (below + 1) && (2 * below + 1) * i.den ≤ 2 * i.value then some (below + 1)
    else some below
  else if i.holds (below + 1) then some (below + 1)
  else none

/-- The place of the first digit: the value is at least `10 ^ (magnitude - 1)` and less than
`10 ^ magnitude`. -/
def magnitude (i : Interval) : Int :=
  if i.den ≤ i.value then (Nat.toDigits 10 (i.value / i.den)).length
  else 1 - (Nat.toDigits 10 ((i.den - 1) / i.value)).length

/-- The nearest decimal of the interval among those with `n` digits, the first of which stands
at `top`. -/
def withDigits? (i : Interval) (top : Int) (n : Nat) : Option Decimal :=
  let e := top - n
  ((i.scale e).nearest?).map fun d => if d % 10 = 0 then ⟨d / 10, e + 1⟩ else ⟨d, e⟩

end Interval

/-- The decimal with the fewest digits that names the double `m · 2 ^ q`, the nearest of
those; `m` is positive. -/
def shortest (m : Nat) (q : Int) : Decimal :=
  let i := Interval.ofBinary m q
  let top := i.magnitude
  ((List.range' 1 17).findSome? (i.withDigits? top)).getD ⟨0, 0⟩

end Script.Number
