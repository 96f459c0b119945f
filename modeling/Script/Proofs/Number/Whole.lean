/-
# Script.Proofs.Number.Whole -- whole numbers as doubles

Every natural number below `2 ^ 53` is a double (`value?_ofNat`), and the sum of two of them is
computed without rounding as long as it is below that, too (`ofNat_add_ofNat`): the sum is shifted
to where its own fifty-three bits begin, and only zeros fall off.
-/
import Mathlib
import Script.Number.Rounding
import Script.Proofs.Number.Parts
import Script.Proofs.Number.Value

namespace Script.Number

set_option autoImplicit false

open Float.Model (UnpackedFloat Format)

namespace Parts

/-- The fifty-three bits of a positive number that has no more. -/
theorem shifted_bounds {n : Nat} (positive : 0 < n) (below : n < 2 ^ 53) :
    2 ^ 52 ≤ n * 2 ^ (52 - n.log2) ∧ n * 2 ^ (52 - n.log2) < 2 ^ 53 := by
  have places : n.log2 ≤ 52 := Nat.le_of_lt_succ ((Nat.log2_lt positive.ne').2 below)
  have low : 2 ^ n.log2 ≤ n := Nat.log2_self_le positive.ne'
  have high : n < 2 ^ (n.log2 + 1) := Nat.lt_log2_self
  have power : 2 ^ 52 = 2 ^ n.log2 * 2 ^ (52 - n.log2) := by
    rw [← pow_add, Nat.add_sub_cancel' places]
  have room : 0 < 2 ^ (52 - n.log2) := Nat.two_pow_pos _
  constructor
  · rw [power]
    exact Nat.mul_le_mul_right _ low
  · calc n * 2 ^ (52 - n.log2) < 2 ^ (n.log2 + 1) * 2 ^ (52 - n.log2) :=
          Nat.mul_lt_mul_of_pos_right high room
      _ = 2 * 2 ^ 52 := by rw [power]; ring
      _ = 2 ^ 53 := by norm_num

/-- The parts of a natural number. -/
def ofWhole (n : Nat) : Parts :=
  if n = 0 then .finite false 0 leastExponent
  else .finite false (n * 2 ^ (52 - n.log2)) (n.log2 - 52)

theorem canonical_ofWhole {n : Nat} (below : n < 2 ^ 53) : (ofWhole n).Canonical := by
  unfold ofWhole
  split
  · exact ⟨by decide, le_rfl, by decide, .inr rfl⟩
  · rename_i nonzero
    obtain ⟨full, fits⟩ := shifted_bounds (Nat.pos_of_ne_zero nonzero) below
    have places : n.log2 ≤ 52 := Nat.le_of_lt_succ ((Nat.log2_lt nonzero).2 below)
    refine ⟨fits, ?_, by omega, .inl full⟩
    rw [leastExponent]
    omega

theorem value?_ofWhole {n : Nat} (below : n < 2 ^ 53) : (ofWhole n).value? = some (n : ℚ) := by
  unfold ofWhole
  split
  · rename_i zero
    simp [value?, rational, zero]
  · rename_i nonzero
    have places : n.log2 ≤ 52 := Nat.le_of_lt_succ ((Nat.log2_lt nonzero).2 below)
    have exponent : (n.log2 : Int) - 52 = -((52 - n.log2 : ℕ) : Int) := by omega
    rw [value?, rational, if_neg (by decide), exponent, zpow_neg, zpow_natCast]
    push_cast
    field_simp

theorem highestPlace_one {n : Nat} (nonzero : n ≠ 0) : highestPlace n 1 = n.log2 := by
  have low : 2 ^ n.log2 ≤ n := Nat.log2_self_le nonzero
  have guess : (n.log2 : Int) - (Nat.log2 1 : Nat) = n.log2 := sub_zero _
  have none : (-(n.log2 : Int)).toNat = 0 := by omega
  rw [highestPlace, guess]
  refine if_pos ?_
  rw [Int.toNat_natCast, none, one_mul]
  exact low.trans (Nat.le_mul_of_pos_right n (Nat.two_pow_pos 0))

theorem roundDiv_one (n : Nat) : roundDiv n 1 = n := by
  simp [roundDiv, Nat.mod_one]

/-- Rounding a natural number below `2 ^ 53` keeps all its bits. -/
theorem nearest_whole {n : Nat} (below : n < 2 ^ 53) : nearest false n 1 = ofWhole n := by
  unfold nearest ofWhole
  split
  · rfl
  · rename_i nonzero
    have places : n.log2 ≤ 52 := Nat.le_of_lt_succ ((Nat.log2_lt nonzero).2 below)
    have last : lastPlace n 1 = (n.log2 : Int) - 52 := by
      rw [lastPlace, highestPlace_one nonzero, leastExponent]
      omega
    have up : ((n.log2 : Int) - 52).toNat = 0 := by omega
    have down : (-((n.log2 : Int) - 52)).toNat = 52 - n.log2 := by omega
    obtain ⟨-, fits⟩ := shifted_bounds (Nat.pos_of_ne_zero nonzero) below
    have small : ¬ greatestExponent < (n.log2 : Int) - 52 := by
      rw [greatestExponent]
      omega
    simp only [last, up, down, ofPlaces, pow2, Nat.pow_eq, pow_zero, one_mul, roundDiv_one, fits.ne,
      if_false, small]

end Parts

theorem ofFloat_ofNat {n : Nat} (below : n < 2 ^ 53) : Parts.ofFloat (ofNat n) = .ofWhole n := by
  have canonical := Parts.canonical_ofWhole below
  rw [ofNat, Parts.nearest_whole below]
  unfold Parts.ofWhole at *
  split at canonical
  · rename_i zero
    rw [if_pos zero]
    exact Parts.ofFloat_pack canonical
  · rename_i nonzero
    rw [if_neg nonzero]
    exact Parts.ofFloat_pack canonical

/-- A natural number below `2 ^ 53` is a double. -/
theorem value?_ofNat {n : Nat} (below : n < 2 ^ 53) : value? (ofNat n) = some (n : ℚ) := by
  rw [value?, ofFloat_ofNat below, Parts.value?_ofWhole below]

/-! ## Sums -/

open Float.Model.UnpackedFloat (ExtendedMantissa)

/-- A natural number as the library has it unpacked. -/
def unpackedWhole (n : Nat) : UnpackedFloat :=
  if nonzero : n = 0 then .zero .positive
  else
    .finite .positive (n * 2 ^ (52 - n.log2)) (n.log2 - 52)
      (Nat.mul_pos (Nat.pos_of_ne_zero nonzero) (Nat.two_pow_pos _))

theorem unpack_ofNat {n : Nat} (below : n < 2 ^ 53) :
    (ofNat n).toModel.unpack = unpackedWhole n := by
  apply Parts.ofUnpacked_inj
  rw [← Parts.ofFloat_eq_ofUnpacked, ofFloat_ofNat below, Parts.ofWhole, unpackedWhole]
  split <;> rfl

/-- Zeros fall off without a trace. -/
theorem shiftRight_exact (m k : Nat) :
    ExtendedMantissa.mk (m * 2 ^ k) false false >>> k = ExtendedMantissa.mk m false false := by
  induction k generalizing m with
  | zero => rw [pow_zero, mul_one]; rfl
  | succ k ih =>
      have inner := ih (m * 2)
      rw [mul_assoc, ← pow_succ'] at inner
      change ExtendedMantissa.shiftRightOne
        (ExtendedMantissa.mk (m * 2 ^ (k + 1)) false false >>> k) = _
      rw [inner]
      simp [ExtendedMantissa.shiftRightOne]

theorem targetExponent_eq {m : Nat} {q target : Int} (least : -1074 ≤ target)
    (places : (m.log2 : Int) + q - 52 = target) :
    Format.binary64.targetExponent (Float.Model.totalExponent m q) = target := by
  simp only [Format.targetExponent, Float.Model.totalExponent, Format.mantissaBits,
    Format.minExponent]
  omega

/-- A number with zeros behind its fifty-three bits is rounded to those. -/
theorem round_exact {m k : Nat} {q : Int} (full : 2 ^ 52 ≤ m) (below : m < 2 ^ 53)
    (least : -1074 ≤ q) :
    UnpackedFloat.round Format.binary64 .positive (m * 2 ^ k) (q - k) =
      .finite .positive m q (Nat.lt_of_lt_of_le (Nat.two_pow_pos 52) full) := by
  have nonzero : m ≠ 0 := by omega
  have bits : m.log2 = 52 := (Nat.log2_eq_iff nonzero).2 ⟨full, below⟩
  have shifted : (m * 2 ^ k).log2 = 52 + k := by
    refine (Nat.log2_eq_iff (Nat.mul_ne_zero nonzero (Nat.two_pow_pos k).ne')).2 ⟨?_, ?_⟩
    · rw [pow_add]
      exact Nat.mul_le_mul_right _ full
    · rw [add_right_comm, pow_add]
      exact Nat.mul_lt_mul_of_pos_right below (Nat.two_pow_pos k)
  have target : Format.binary64.targetExponent
      (Float.Model.totalExponent (m * 2 ^ k) (q - k)) = q :=
    targetExponent_eq least (by rw [shifted]; push_cast; ring)
  have again : Format.binary64.targetExponent (Float.Model.totalExponent m q) = q :=
    targetExponent_eq least (by rw [bits]; push_cast; ring)
  have up : (q - k - q).toNat = 0 := by omega
  have down : (q - (q - k)).toNat = k := by omega
  have back : q - k + (k : Int) = q := by ring
  have still (em : ExtendedMantissa) : em >>> (0 : Nat) = em := rfl
  simp only [UnpackedFloat.round, target, UnpackedFloat.decreaseExponent, up, Nat.shiftLeft_zero,
    Nat.cast_zero, sub_zero, UnpackedFloat.roundWithAccuracy, UnpackedFloat.shiftToTargetExponent,
    UnpackedFloat.shiftToExponent, down, back, ExtendedMantissa.ofMantissaAndAccuracy,
    shiftRight_exact, ExtendedMantissa.roundedMantissa, ExtendedMantissa.accuracy,
    UnpackedFloat.Accuracy.roundToNearestEven, again, sub_self, Int.toNat_zero, still, add_zero,
    nonzero, dif_neg, not_false_eq_true]

theorem log2_le_log2 {m n : Nat} (positive : m ≠ 0) (le : m ≤ n) : m.log2 ≤ n.log2 :=
  (Nat.le_log2 (by omega)).2 ((Nat.log2_self_le positive).trans le)

/-- Brought down to the exponent `e - 52 - k`, a number is what it would be at `e - 52`, times
`2 ^ k`. -/
theorem shiftLeft_aligned {i e k : Nat} (places : i.log2 ≤ 52) (top : e ≤ 52)
    (lower : (e : Int) - 52 - k ≤ (i.log2 : Int) - 52) :
    (i * 2 ^ (52 - i.log2)) <<< ((i.log2 : Int) - 52 - (e - 52 - k)).toNat =
      i * 2 ^ (52 - e) * 2 ^ k := by
  have total : 52 - i.log2 + ((i.log2 : Int) - 52 - (e - 52 - k)).toNat = 52 - e + k := by
    omega
  rw [Nat.shiftLeft_eq, mul_assoc, ← pow_add, total, pow_add, mul_assoc]

/-- Adding natural numbers as the library has them unpacked. -/
theorem add_unpackedWhole {m n : Nat} (below : m + n < 2 ^ 53) :
    UnpackedFloat.add Format.binary64 (unpackedWhole m) (unpackedWhole n) =
      unpackedWhole (m + n) := by
  by_cases left : m = 0
  · subst left
    rw [Nat.zero_add]
    unfold unpackedWhole
    by_cases right : n = 0
    · rw [dif_pos right]
      rfl
    · rw [dif_neg right]
      rfl
  by_cases right : n = 0
  · subst right
    rw [Nat.add_zero, unpackedWhole, dif_neg left]
    rfl
  have total : m + n ≠ 0 := by omega
  rw [unpackedWhole, dif_neg left, unpackedWhole, dif_neg right, unpackedWhole, dif_neg total]
  obtain ⟨full, fits⟩ := Parts.shifted_bounds (Nat.pos_of_ne_zero total) below
  have first : m.log2 ≤ (m + n).log2 := log2_le_log2 left (Nat.le_add_right m n)
  have second : n.log2 ≤ (m + n).log2 := log2_le_log2 right (Nat.le_add_left n m)
  have bits : (m + n).log2 ≤ 52 := Nat.le_of_lt_succ ((Nat.log2_lt total).2 below)
  simp only [UnpackedFloat.add, UnpackedFloat.decreaseExponent]
  generalize low : min ((m.log2 : Int) - 52) (n.log2 - 52) = q
  obtain ⟨k, rfl⟩ : ∃ k : ℕ, q = (m + n).log2 - 52 - k :=
    ⟨((m + n).log2 - 52 - q).toNat, by omega⟩
  rw [shiftLeft_aligned (first.trans bits) bits (by omega),
    shiftLeft_aligned (second.trans bits) bits (by omega)]
  have sum : ∀ a b : Nat, UnpackedFloat.Sign.positive.apply (a : Int) +
      UnpackedFloat.Sign.positive.apply (b : Int) = ((a + b : Nat) : Int) := fun _ _ => rfl
  rw [sum, ← Nat.add_mul, ← Nat.add_mul]
  have positive : compare (((m + n) * 2 ^ (52 - (m + n).log2) * 2 ^ k : Nat) : Int) 0 = .gt := by
    rw [compare_gt_iff_gt]
    exact_mod_cast Nat.mul_pos (Nat.lt_of_lt_of_le (Nat.two_pow_pos 52) full) (Nat.two_pow_pos k)
  rw [UnpackedFloat.normalize, positive]
  exact round_exact full fits (by omega)

/-- The sum of two natural numbers is exact below `2 ^ 53`. -/
theorem ofNat_add_ofNat {m n : Nat} (below : m + n < 2 ^ 53) :
    ofNat m + ofNat n = ofNat (m + n) := by
  have unpacked : (ofNat m + ofNat n).toModel =
      Float.Model.pack (ofNat (m + n)).toModel.unpack := by
    rw [unpack_ofNat below, ← add_unpackedWhole below, ← unpack_ofNat (by omega : m < 2 ^ 53),
      ← unpack_ofNat (by omega : n < 2 ^ 53)]
    rfl
  exact (congrArg Float.ofModel unpacked).trans (Float.ofBits_toBits _)

end Script.Number
