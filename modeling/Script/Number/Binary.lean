/-
# Script.Number.Binary -- a double taken apart, and put together again

A finite double is `mantissa · 2 ^ exponent` with a sign.  `Parts.ofFloat` reads the
three off the bit pattern: the top bit is the sign, the next eleven hold the
exponent, the low fifty-two the fraction.  A zero exponent field marks the
numbers below the normal range, whose mantissa has no leading one; a full one
marks infinities and not-a-number.

`Parts.pack` goes back.  It shifts the mantissa up until it has fifty-three bits or the
exponent is the least possible, so every value that a double can hold exactly is
packed exactly, however its mantissa and exponent were split.
-/
namespace Script.Number

set_option autoImplicit false

/-- A power of two. -/
abbrev pow2 (n : Nat) : Nat := Nat.pow 2 n

/-- A power of ten. -/
abbrev pow10 (n : Nat) : Nat := Nat.pow 10 n

/-- What a double stands for. -/
inductive Parts where
  | notANumber
  | infinite (negative : Bool)
  | finite (negative : Bool) (mantissa : Nat) (exponent : Int)
deriving DecidableEq, Repr

/-- The least exponent of a finite double. -/
def leastExponent : Int := -1074

namespace Parts

/-- Sign, mantissa and exponent of a bit pattern. -/
def ofBits (bits : Nat) : Parts :=
  let negative := bits / pow2 63 % 2 == 1
  let field : Nat := bits / pow2 52 % pow2 11
  let fraction : Nat := bits % pow2 52
  if field = 2047 then
    if fraction = 0 then .infinite negative else .notANumber
  else if field = 0 then .finite negative fraction leastExponent
  else .finite negative (pow2 52 + fraction) (field - 1075)

def ofFloat (x : Float) : Parts :=
  ofBits x.toBits.toNat

/-- The bits below the sign of `mantissa · 2 ^ exponent`, a value that a finite double holds
exactly. -/
def magnitudeBits (mantissa : Nat) (exponent : Int) : Nat :=
  let room := min (52 - mantissa.log2) (exponent - leastExponent).toNat
  let significand := mantissa <<< room
  if significand < pow2 52 then significand
  else (exponent - room + 1075).toNat * pow2 52 + (significand - pow2 52)

/-- The bit pattern of a finite double with the given sign and value. -/
def finiteBits (negative : Bool) (mantissa : Nat) (exponent : Int) : Nat :=
  (if negative then pow2 63 else 0) + magnitudeBits mantissa exponent

def pack : Parts → Float
  | .notANumber => Float.ofBits 0x7ff8000000000000
  | .infinite negative => Float.ofBits (if negative then 0xfff0000000000000 else 0x7ff0000000000000)
  | .finite negative mantissa exponent =>
      Float.ofBits (finiteBits negative mantissa exponent).toUInt64

end Parts

/-- Not-a-number. -/
def notANumber : Float := Parts.notANumber.pack

/-- Positive infinity. -/
def infinity : Float := (Parts.infinite false).pack

end Script.Number
