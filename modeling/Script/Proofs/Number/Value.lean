/-
# Script.Proofs.Number.Value -- the rational number that a double is

A finite double is a rational number, infinities and not-a-number are none.  Both zeros
are the number zero.  `whole?_eq_some_iff` says that `whole?` finds exactly the
integers among these numbers.
-/
import Mathlib.Algebra.Field.Rat
import Mathlib.Data.Nat.Cast.Field
import Mathlib.Data.Rat.Cast.CharZero
import Mathlib.Tactic.FieldSimp
import Mathlib.Tactic.Ring
import Script.Number.Whole

namespace Script.Number

set_option autoImplicit false

namespace Parts

/-- The value of a sign, a mantissa and an exponent. -/
def rational (negative : Bool) (m : Nat) (q : Int) : ℚ :=
  if negative then -(m * 2 ^ q) else m * 2 ^ q

/-- The number that the parts stand for. -/
def value? : Parts → Option ℚ
  | .finite negative m q => some (rational negative m q)
  | _ => none

/-- A power as a fraction with a one above or below. -/
theorem natCast_zpow (b : Nat) (q : Int) :
    (b : ℚ) ^ q = (b ^ q.toNat : ℕ) / (b ^ (-q).toNat : ℕ) := by
  simp only [Nat.cast_pow]
  rcases le_total 0 q with up | down
  · have below : (-q).toNat = 0 := by omega
    rw [below, pow_zero, div_one, ← zpow_natCast, Int.toNat_of_nonneg up]
  · have above : q.toNat = 0 := by omega
    rw [above, pow_zero, one_div, ← zpow_natCast, Int.toNat_of_nonneg (by omega), zpow_neg,
      inv_inv]

theorem two_zpow (q : Int) : (2 : ℚ) ^ q = (2 ^ q.toNat : ℕ) / (2 ^ (-q).toNat : ℕ) :=
  natCast_zpow 2 q

/-- Without a fraction the size of the value is the whole number that division gives. -/
theorem mul_two_zpow_of_dvd {m : Nat} {q : Int} (divides : 2 ^ (-q).toNat ∣ m) :
    (m : ℚ) * 2 ^ q = (m * 2 ^ q.toNat / 2 ^ (-q).toNat : ℕ) := by
  have factor : 2 ^ (-q).toNat ∣ m * 2 ^ q.toNat := divides.mul_right _
  rw [Nat.cast_div factor (by simp), two_zpow, Nat.cast_mul, mul_div_assoc]

/-- A whole value leaves no fraction. -/
theorem dvd_of_mul_two_zpow {m : Nat} {q i : Int} (whole : (m : ℚ) * 2 ^ q = i) :
    2 ^ (-q).toNat ∣ m := by
  rcases le_total 0 q with up | down
  · have below : (-q).toNat = 0 := by omega
    simp [below]
  · have above : q.toNat = 0 := by omega
    rw [two_zpow, above, pow_zero, Nat.cast_one, mul_one_div, div_eq_iff (by simp)] at whole
    have product : (m : ℤ) = i * (2 ^ (-q).toNat : ℕ) := by exact_mod_cast whole
    exact Int.natCast_dvd_natCast.1 ⟨i, by rw [product, mul_comm]⟩

theorem whole?_eq_some_iff {p : Parts} {i : Int} :
    p.whole? = some i ↔ p.value? = some (i : ℚ) := by
  cases p with
  | finite negative m q =>
      simp only [whole?, value?, rational, pow2, Nat.pow_eq, Option.some.injEq]
      by_cases divides : 2 ^ (-q).toNat ∣ m
      · rw [if_pos (Nat.mod_eq_zero_of_dvd divides), mul_two_zpow_of_dvd divides]
        rw [← Int.cast_natCast]
        cases negative with
        | false => exact Option.some_inj.trans Int.cast_inj.symm
        | true =>
            rw [if_pos rfl, ← Int.cast_neg, Int.cast_inj]
            exact Option.some_inj
      · rw [if_neg (fun none => divides (Nat.dvd_of_mod_eq_zero none))]
        refine ⟨by simp, fun whole => absurd ?_ divides⟩
        cases negative with
        | false => exact dvd_of_mul_two_zpow whole
        | true =>
            refine dvd_of_mul_two_zpow (i := -i) ?_
            rw [Int.cast_neg, ← whole, if_pos rfl, neg_neg]
  | notANumber => simp [whole?, value?]
  | infinite negative => simp [whole?, value?]

end Parts

/-- The number that a double is. -/
def value? (x : Float) : Option ℚ :=
  (Parts.ofFloat x).value?

/-- The whole number of a double is its value, when that is an integer. -/
theorem whole?_eq_some_iff {x : Float} {i : Int} : whole? x = some i ↔ value? x = some (i : ℚ) :=
  Parts.whole?_eq_some_iff

/-- Negative zero is the number zero. -/
example : value? (-0.0) = some 0 :=
  whole?_eq_some_iff.1 (by decide +kernel)

end Script.Number
