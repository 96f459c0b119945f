/-
# Script.Number.Reading -- the number a decimal text stands for

A decimal text is a run of digits with at most one point among, before or behind
them.  It stands for the double nearest to its value, the one with the even mantissa
when two are equally near; a value beyond the largest double stands for infinity.
-/
import Script.Number.Rounding

namespace Script.Number

set_option autoImplicit false

/-- The number a run of decimal digits stands for. -/
def ofDigits (digits : List Char) : Nat :=
  digits.foldl (fun n c => 10 * n + (c.toNat - '0'.toNat)) 0

/-- The digits before and after the point, which is absent when there is no fraction. -/
def splitPoint (cs : List Char) : List Char × List Char :=
  (cs.takeWhile (· ≠ '.'), (cs.dropWhile (· ≠ '.')).drop 1)

/-- The double nearest to an unsigned decimal text. -/
def ofDecimal? (cs : List Char) : Option Float :=
  let (whole, fraction) := splitPoint cs
  let digits := whole ++ fraction
  if digits.isEmpty || !digits.all Char.isDigit then none
  else some (Parts.nearest false (ofDigits digits) (pow10 fraction.length)).pack

/-- The number a canonical text stands for: a decimal with an optional sign, or one of the
words for the numbers that have no digits. -/
def ofText? (text : String) : Option Float :=
  match text.toList with
  | '-' :: rest => (magnitude? rest).map (- ·)
  | cs => magnitude? cs
where
  /-- The number without its sign. -/
  magnitude? (cs : List Char) : Option Float :=
    if cs = "NaN".toList then some notANumber
    else if cs = "Infinity".toList then some infinity
    else ofDecimal? cs

end Script.Number
