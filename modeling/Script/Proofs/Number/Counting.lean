/-
# Script.Proofs.Number.Counting -- counting with doubles

A loop counts with doubles: it starts at zero, adds one, takes one count from another and looks
which of two is less.  Below `2 ^ 53` all of this is what it is for natural numbers.  For sums see
`ofNat_add_ofNat`; a difference may have fewer bits than the numbers it is taken from, and is then
filled up with zeros (`round_filled`).
-/
import Script.Proofs.Number.Order
import Script.Proofs.Number.Whole

namespace Script.Number

set_option autoImplicit false

open Float.Model (UnpackedFloat Format)
open Float.Model.UnpackedFloat (ExtendedMantissa)

/-- A number with less than fifty-three bits gets zeros behind them. -/
theorem round_filled {m k : Nat} {q : Int} (full : 2 ^ 52 ≤ m * 2 ^ k) (below : m * 2 ^ k < 2 ^ 53)
    (least : -1074 ≤ q) :
    UnpackedFloat.round Format.binary64 .positive m (q + k) =
      .finite .positive (m * 2 ^ k) q (Nat.lt_of_lt_of_le (Nat.two_pow_pos 52) full) := by
  have nonzero : m * 2 ^ k ≠ 0 := by omega
  have bits : (m * 2 ^ k).log2 = 52 := (Nat.log2_eq_iff nonzero).2 ⟨full, below⟩
  have positive : m ≠ 0 := left_ne_zero_of_mul nonzero
  have own : m.log2 + k = 52 := by
    rw [← bits]
    refine ((Nat.log2_eq_iff nonzero).2 ⟨?_, ?_⟩).symm
    · rw [pow_add]
      exact Nat.mul_le_mul_right _ (Nat.log2_self_le positive)
    · rw [add_right_comm, pow_add]
      exact Nat.mul_lt_mul_of_pos_right Nat.lt_log2_self (Nat.two_pow_pos k)
  have target : Format.binary64.targetExponent (Float.Model.totalExponent m (q + k)) = q :=
    targetExponent_eq least (by omega)
  have again : Format.binary64.targetExponent (Float.Model.totalExponent (m * 2 ^ k) q) = q :=
    targetExponent_eq least (by rw [bits]; push_cast; ring)
  have up : (q + k - q).toNat = k := by omega
  have back : q + (k : Int) - (k : Int) = q := by ring
  have still (em : ExtendedMantissa) : em >>> (0 : Nat) = em := rfl
  simp only [UnpackedFloat.round, target, UnpackedFloat.decreaseExponent, up, Nat.shiftLeft_eq,
    back, UnpackedFloat.roundWithAccuracy, UnpackedFloat.shiftToTargetExponent,
    UnpackedFloat.shiftToExponent, again, sub_self, Int.toNat_zero, still,
    ExtendedMantissa.ofMantissaAndAccuracy, ExtendedMantissa.roundedMantissa,
    ExtendedMantissa.accuracy, UnpackedFloat.Accuracy.roundToNearestEven, nonzero, dif_neg,
    not_false_eq_true, Nat.cast_zero, add_zero]

/-- A number is rounded to what it is, whatever exponent it is given with. -/
theorem round_whole {n a : Nat} (positive : 0 < n) (below : n < 2 ^ 53) :
    UnpackedFloat.round Format.binary64 .positive (n * 2 ^ a) (-(a : Int)) = unpackedWhole n := by
  obtain ⟨full, fits⟩ := Parts.shifted_bounds positive below
  have places : n.log2 ≤ 52 := Nat.le_of_lt_succ ((Nat.log2_lt positive.ne').2 below)
  rw [unpackedWhole, dif_neg positive.ne']
  rcases Nat.le_total (52 - n.log2) a with wide | narrow
  · obtain ⟨k, rfl⟩ := Nat.exists_eq_add_of_le wide
    have exponent : -((52 - n.log2 + k : ℕ) : Int) = n.log2 - 52 - k := by omega
    rw [pow_add, ← mul_assoc, exponent]
    exact round_exact full fits (by omega)
  · obtain ⟨k, filled⟩ := Nat.exists_eq_add_of_le narrow
    have exponent : -(a : Int) = n.log2 - 52 + k := by omega
    simp only [filled, pow_add, ← mul_assoc] at full fits ⊢
    rw [exponent]
    exact round_filled full fits (by omega)

/-- Subtracting natural numbers as the library has them unpacked. -/
theorem sub_unpackedWhole {m n : Nat} (le : n ≤ m) (below : m < 2 ^ 53) :
    UnpackedFloat.sub Format.binary64 (unpackedWhole m) (unpackedWhole n) =
      unpackedWhole (m - n) := by
  by_cases right : n = 0
  · subst right
    rw [Nat.sub_zero]
    unfold unpackedWhole
    by_cases left : m = 0
    · rw [dif_pos left]
      rfl
    · rw [dif_neg left]
      rfl
  have left : m ≠ 0 := by omega
  have lower : n.log2 ≤ m.log2 := log2_le_log2 right le
  have bits : m.log2 ≤ 52 := Nat.le_of_lt_succ ((Nat.log2_lt left).2 below)
  rw [unpackedWhole, dif_neg left, unpackedWhole, dif_neg right]
  simp only [UnpackedFloat.sub, UnpackedFloat.decreaseExponent]
  have least : min ((m.log2 : Int) - 52) (n.log2 - 52) = n.log2 - 52 - (0 : ℕ) := by omega
  rw [least, shiftLeft_aligned bits (lower.trans bits) (by omega),
    shiftLeft_aligned (lower.trans bits) (lower.trans bits) (by omega)]
  have difference : ∀ a b c : Nat, b ≤ a → UnpackedFloat.Sign.positive.apply ((a * c : Nat) : Int) -
      UnpackedFloat.Sign.positive.apply ((b * c : Nat) : Int) = (((a - b) * c : Nat) : Int) := by
    intro a b c le
    change ((a * c : Nat) : Int) - ((b * c : Nat) : Int) = _
    rw [Nat.sub_mul, Nat.cast_sub (Nat.mul_le_mul_right c le)]
  have exponent : (n.log2 : Int) - 52 - (0 : ℕ) = -((52 - n.log2 : ℕ) : Int) := by omega
  rw [pow_zero, mul_one, mul_one, difference m n _ le, exponent, UnpackedFloat.normalize]
  by_cases same : m - n = 0
  · rw [same, Nat.zero_mul, unpackedWhole, dif_pos rfl]
    rfl
  · have positive : compare (((m - n) * 2 ^ (52 - n.log2) : Nat) : Int) 0 = .gt := by
      rw [compare_gt_iff_gt]
      exact_mod_cast Nat.mul_pos (Nat.pos_of_ne_zero same) (Nat.two_pow_pos _)
    rw [positive]
    exact round_whole (Nat.pos_of_ne_zero same) (by omega)

/-- The difference of two natural numbers is exact below `2 ^ 53`. -/
theorem ofNat_sub_ofNat {m n : Nat} (le : n ≤ m) (below : m < 2 ^ 53) :
    ofNat m - ofNat n = ofNat (m - n) := by
  have unpacked : (ofNat m - ofNat n).toModel =
      Float.Model.pack (ofNat (m - n)).toModel.unpack := by
    rw [unpack_ofNat (by omega), ← sub_unpackedWhole le below, ← unpack_ofNat below,
      ← unpack_ofNat (by omega : n < 2 ^ 53)]
    rfl
  exact (congrArg Float.ofModel unpacked).trans (Float.ofBits_toBits _)

theorem ofNat_lt_ofNat {m n : Nat} (left : m < 2 ^ 53) (right : n < 2 ^ 53) :
    ofNat m < ofNat n ↔ m < n := by
  rw [lt_iff (extended?_of_value? (value?_ofNat left)) (extended?_of_value? (value?_ofNat right)),
    Parts.coe_lt_coe, Nat.cast_lt]

theorem ofNat_le_ofNat {m n : Nat} (left : m < 2 ^ 53) (right : n < 2 ^ 53) :
    ofNat m ≤ ofNat n ↔ m ≤ n := by
  rw [le_iff (extended?_of_value? (value?_ofNat left)) (extended?_of_value? (value?_ofNat right)),
    WithBot.coe_le_coe, WithTop.coe_le_coe, Nat.cast_le]

/-! ## One less than a count -/

/-- One less than a count, and for zero the number that is one less than that. -/
def before (m : Nat) : Float :=
  ofNat m - ofNat 1

theorem before_succ {m : Nat} (below : m + 1 < 2 ^ 53) : before (m + 1) = ofNat m :=
  ofNat_sub_ofNat (Nat.le_add_left 1 m) below

theorem value?_before_zero : value? (before 0) = some (-1) := by
  decide +kernel

/-- A count is at most one less than another if it is less. -/
theorem ofNat_le_before {k m : Nat} (left : k < 2 ^ 53) (right : m < 2 ^ 53) :
    ofNat k ≤ before m ↔ k < m := by
  cases m with
  | zero =>
      rw [le_iff (extended?_of_value? (value?_ofNat left)) (extended?_of_value? value?_before_zero),
        WithBot.coe_le_coe, WithTop.coe_le_coe]
      have negative : (-1 : ℚ) < k := neg_one_lt_zero.trans_le (Nat.cast_nonneg k)
      exact iff_of_false (not_le.2 negative) (Nat.not_lt_zero k)
  | succ m => rw [before_succ right, ofNat_le_ofNat left (by omega), Nat.lt_succ_iff]

end Script.Number
