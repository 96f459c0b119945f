/-
# Script.Number.Layout -- how the digits of a number are laid out as text

A number is written with the fewest digits that name it.  A `Layout` records what
is left to decide: how an infinity is spelled, what follows a whole number, and
which numbers are written with a power of ten instead of in full.  The language has
three layouts.

* `canonical` is the text of a number value: always in full, `Infinity`.
* `inMessage` is a number inside a failure's message: always in full, `inf`.
* `listing` is a number in a token listing: whole numbers end in `.0`, and a power
  of ten is written from `1e16` up and below `1e-4`.
-/
import Script.Number.Binary
import Script.Number.Shortest

namespace Script.Number

set_option autoImplicit false

/-- The choices that turn digits into a text. -/
structure Layout where
  /-- The word for an infinite number. -/
  infinity : String
  /-- What follows a number without a fraction. -/
  whole : String
  /-- Whether a number whose first digit stands for `10 ^ k` is written with a power of ten. -/
  scientific : Int → Bool

namespace Layout

def canonical : Layout := ⟨"Infinity", "", fun _ => false⟩

def inMessage : Layout := ⟨"inf", "", fun _ => false⟩

def listing : Layout := ⟨"inf", ".0", fun k => decide (k < -4) || decide (16 ≤ k)⟩

end Layout

/-- A decimal written in full. -/
def positional (l : Layout) (digits : List Char) (exponent : Int) : List Char :=
  if 0 ≤ exponent then
    digits ++ List.replicate exponent.toNat '0' ++ l.whole.toList
  else
    let places := (-exponent).toNat
    if places < digits.length then
      digits.take (digits.length - places) ++ '.' :: digits.drop (digits.length - places)
    else
      '0' :: '.' :: List.replicate (places - digits.length) '0' ++ digits

/-- A decimal written as one digit, its fraction and the power of ten of the first digit. -/
def withPower (digits : List Char) (power : Int) : List Char :=
  let fraction := digits.drop 1
  digits.take 1 ++ (if fraction.isEmpty then [] else '.' :: fraction) ++
    'e' :: (toString power).toList

/-- The text of a positive decimal. -/
def Decimal.write (l : Layout) (d : Decimal) : List Char :=
  let digits := Nat.toDigits 10 d.digits
  let power := d.exponent + digits.length - 1
  if l.scientific power then withPower digits power else positional l digits d.exponent

/-- The text of a number without its sign. -/
def writeMagnitude (l : Layout) (m : Nat) (q : Int) : List Char :=
  if m = 0 then '0' :: l.whole.toList else (shortest m q).write l

/-- The text of what a double stands for. -/
def Parts.write (l : Layout) : Parts → String
  | .notANumber => "NaN"
  | .infinite negative => if negative then "-" ++ l.infinity else l.infinity
  | .finite negative m q =>
      String.ofList (if negative then '-' :: writeMagnitude l m q else writeMagnitude l m q)

/-- The text of a number. -/
def write (l : Layout) (x : Float) : String :=
  (Parts.ofFloat x).write l

/-- The canonical text of a number: the fewest digits that read back as it, in full. -/
def text (x : Float) : String :=
  write .canonical x

end Script.Number
