/-
# Script.Proofs.Number.Shortest -- the shortest decimal names its double

Every decimal that is found lies in the interval of the double (`withDigits?_contains`): counting in
powers of ten changes the fractions of an interval as it changes its ends (`contains_scale`).  One
is always found.  An interval that is wider than the unit holds one of the whole numbers around its
value (`exists_nearest?`), and with seventeen digits the unit is that small: the value has a digit
at the first place (`magnitude_le`), and an interval is wider than the part `10 ^ -16` of its value
(`ofBinary_bounds`).
-/
import Mathlib
import Script.Proofs.Number.Rounding

namespace Script.Number

set_option autoImplicit false

/-- The number that a decimal is. -/
def Decimal.value (d : Decimal) : ℚ :=
  d.digits * 10 ^ d.exponent

namespace Interval

variable {i : Interval}

theorem holds_iff {d : Nat} : i.holds d = true ↔ i.Contains d := by
  unfold holds Contains Between
  split
  · rw [Bool.and_eq_true, decide_eq_true_eq, decide_eq_true_eq]
    exact_mod_cast Iff.rfl
  · rw [Bool.and_eq_true, decide_eq_true_eq, decide_eq_true_eq]
    exact_mod_cast Iff.rfl

theorem pow10_toNat (e : Int) :
    (pow10 e.toNat : ℚ) = 10 ^ e * (pow10 (-e).toNat : ℕ) := by
  have power := Parts.natCast_zpow 10 e
  have positive : (0 : ℚ) < (10 ^ (-e).toNat : ℕ) := by positivity
  rw [eq_div_iff positive.ne'] at power
  exact_mod_cast power.symm

/-- Fractions are in units of `10 ^ e` what the ends of the interval are. -/
theorem contains_scale {e : Int} {r : ℚ} : (i.scale e).Contains r ↔ i.Contains (r * 10 ^ e) := by
  have up : (0 : ℚ) < (pow10 (-e).toNat : ℕ) := by
    exact_mod_cast Nat.pow_pos (n := (-e).toNat) (by decide : 0 < 10)
  have scaled : r * ((i.den : ℚ) * (pow10 e.toNat : ℕ)) =
      r * 10 ^ e * i.den * (pow10 (-e).toNat : ℕ) := by
    rw [pow10_toNat]
    ring
  simp only [Contains, scale, Nat.cast_mul, scaled]
  exact Between.mul_iff up

/-! ## What is found -/

theorem holds_of_nearest? {d : Nat} (found : i.nearest? = some d) : i.holds d = true := by
  unfold nearest? at found
  simp only at found
  split at found
  case isTrue below =>
    split at found <;> cases found
    · rename_i next
      rw [Bool.and_eq_true] at next
      exact next.1
    · exact below
  case isFalse =>
    split at found <;> cases found
    assumption

/-- A decimal that is found names a fraction of the interval. -/
theorem withDigits?_contains {top : Int} {n : Nat} {d : Decimal}
    (found : i.withDigits? top n = some d) : i.Contains d.value := by
  obtain ⟨digits, near, same⟩ := Option.map_eq_some_iff.1 found
  have inside := contains_scale.1 (holds_iff.1 (holds_of_nearest? near))
  have value : d.value = digits * 10 ^ (top - n) := by
    rw [← same, Decimal.value]
    split
    · rename_i zero
      have tens : ((digits / 10 : ℕ) : ℚ) * 10 = digits := by
        exact_mod_cast Nat.div_mul_cancel (Nat.dvd_of_mod_eq_zero zero)
      rw [zpow_add_one₀ (by norm_num), ← tens]
      ring
    · rfl
  rwa [value]

/-! ## Something is found -/

/-- An interval that is wider than the unit holds a whole number next to its value. -/
theorem exists_nearest? (positive : 0 < i.den) (low : i.low < i.value) (high : i.value < i.high)
    (wide : i.den + i.low < i.high) : ∃ d, i.nearest? = some d := by
  have parts : i.den * (i.value / i.den) + i.value % i.den = i.value := Nat.div_add_mod _ _
  have rest : i.value % i.den < i.den := Nat.mod_lt _ positive
  have here : i.holds (i.value / i.den) = true ∨ i.holds (i.value / i.den + 1) = true := by
    have below : i.value / i.den * i.den ≤ i.value := Nat.div_mul_le_self _ _
    have next : (i.value / i.den + 1) * i.den = i.value / i.den * i.den + i.den :=
      Nat.succ_mul _ _
    rw [Nat.mul_comm] at parts
    simp only [holds, next]
    generalize i.value / i.den * i.den = k at *
    split <;> simp only [Bool.and_eq_true, decide_eq_true_eq] <;> omega
  unfold nearest?
  simp only
  split
  · split <;> exact ⟨_, rfl⟩
  · rename_i none
    rw [if_pos (here.resolve_left none)]
    exact ⟨_, rfl⟩

theorem pow_le_of_length_toDigits {n k : Nat} (positive : 0 < n)
    (long : k < (Nat.toDigits 10 n).length) : 10 ^ k ≤ n := by
  by_contra small
  rcases Nat.eq_zero_or_pos k with rfl | more
  · exact small positive
  · have short := (Nat.length_toDigits_le_iff (by decide) more).2 (Nat.lt_of_not_le small)
    omega

/-- The value has a digit at the first place. -/
theorem magnitude_le (some : 0 < i.value) (positive : 0 < i.den) :
    10 ^ (i.magnitude - 1) ≤ (i.value : ℚ) / i.den := by
  rw [magnitude]
  split
  · rename_i whole
    obtain ⟨k, digits⟩ := Nat.exists_eq_succ_of_ne_zero
      (Nat.length_toDigits_pos : 0 < (Nat.toDigits 10 (i.value / i.den)).length).ne'
    have long : 10 ^ k ≤ i.value / i.den :=
      pow_le_of_length_toDigits (Nat.div_pos whole positive) (by omega)
    rw [digits, Nat.cast_succ, add_sub_cancel_right, zpow_natCast]
    calc (10 : ℚ) ^ k ≤ (i.value / i.den : ℕ) := by exact_mod_cast long
      _ ≤ i.value / i.den := Nat.cast_div_le
  · -- the number of digits counts the zeros behind the point
    generalize digits : (Nat.toDigits 10 ((i.den - 1) / i.value)).length = k
    have many : 0 < k := digits ▸ Nat.length_toDigits_pos
    have short : (i.den - 1) / i.value < 10 ^ k :=
      (Nat.length_toDigits_le_iff (by decide) many).1 digits.le
    have bound : i.den ≤ i.value * 10 ^ k := by
      have := (Nat.div_lt_iff_lt_mul some).1 short
      rw [Nat.mul_comm] at this
      omega
    rw [sub_sub_cancel_left, zpow_neg, zpow_natCast, inv_le_iff_one_le_mul₀ (by positivity),
      div_mul_eq_mul_div, one_le_div (by exact_mod_cast positive)]
    exact_mod_cast bound

/-- The ends of the interval of a double lie around it, more than the part `10 ^ -16` of it
apart. -/
theorem ofBinary_bounds {m : Nat} (q : Int) (some : 0 < m) (below : m < 2 ^ 53) :
    let i := ofBinary m q
    0 < i.den ∧ i.low < i.value ∧ i.value < i.high ∧
      i.value + i.low * 10 ^ 16 < i.high * 10 ^ 16 := by
  intro i
  have up : 0 < 2 ^ (q - 2).toNat := Nat.two_pow_pos _
  obtain ⟨k, short, narrow⟩ : ∃ k, (k = 2 ∨ m = 2 ^ 52 ∧ k = 1) ∧
      i.low = (4 * m - k) * 2 ^ (q - 2).toNat := by
    by_cases power : m = pow2 52
    · exact ⟨1, .inr ⟨power, rfl⟩, by simp only [i, ofBinary, if_pos power, pow2, Nat.pow_eq]⟩
    · exact ⟨2, .inl rfl, by simp only [i, ofBinary, if_neg power, pow2, Nat.pow_eq]⟩
  have value : i.value = 4 * m * 2 ^ (q - 2).toNat := rfl
  have high : i.high = (4 * m + 2) * 2 ^ (q - 2).toNat := rfl
  rw [narrow, value, high]
  refine ⟨Nat.two_pow_pos _, ?_, ?_, ?_⟩
  · exact Nat.mul_lt_mul_of_pos_right (by omega) up
  · exact Nat.mul_lt_mul_of_pos_right (by omega) up
  · have wide : 4 * m + (4 * m - k) * 10 ^ 16 < (4 * m + 2) * 10 ^ 16 := by omega
    have scaled := Nat.mul_lt_mul_of_pos_right wide up
    linarith

/-- Seventeen digits are enough for a double. -/
theorem exists_withDigits? {m : Nat} (q : Int) (some : 0 < m) (below : m < 2 ^ 53) :
    ∃ d, (ofBinary m q).withDigits? (ofBinary m q).magnitude 17 = Option.some d := by
  obtain ⟨positive, low, high, wide⟩ := ofBinary_bounds q some below
  generalize ofBinary m q = i at *
  obtain ⟨e, unit⟩ : ∃ e, e = i.magnitude - (17 : ℕ) := ⟨_, rfl⟩
  have up : 0 < pow10 (-e).toNat := Nat.pow_pos (by decide)
  -- the unit is smaller than the interval is wide
  have room : (i.den : ℚ) * 10 ^ e + i.low < i.high := by
    have first := magnitude_le (Nat.zero_lt_of_lt low) positive
    have place : i.magnitude - 1 = e + (16 : ℕ) := by omega
    rw [le_div_iff₀ (by exact_mod_cast positive), place, zpow_add₀ (by norm_num),
      zpow_natCast] at first
    have wide : (i.value : ℚ) + i.low * 10 ^ 16 < i.high * 10 ^ 16 := by exact_mod_cast wide
    linarith
  have scaled : (i.scale e).den + (i.scale e).low < (i.scale e).high := by
    have room := mul_lt_mul_of_pos_right room (Nat.cast_pos.2 up)
    rw [add_mul, mul_assoc, ← pow10_toNat] at room
    exact_mod_cast room
  have unitPositive : 0 < (i.scale e).den := Nat.mul_pos positive (Nat.pow_pos (by decide))
  obtain ⟨d, found⟩ := exists_nearest? unitPositive (Nat.mul_lt_mul_of_pos_right low up)
    (Nat.mul_lt_mul_of_pos_right high up) scaled
  simp only [withDigits?, ← unit, found]
  exact ⟨_, rfl⟩

end Interval

/-- The shortest decimal of a double lies in its interval. -/
theorem shortest_contains {m : Nat} (q : Int) (some : 0 < m) (below : m < 2 ^ 53) :
    (Interval.ofBinary m q).Contains (shortest m q).value := by
  obtain ⟨last, enough⟩ := Interval.exists_withDigits? q some below
  have member : 17 ∈ List.range' 1 17 := by decide
  have found := List.findSome?_isSome_iff.2 ⟨17, member, Option.isSome_of_eq_some enough⟩
  obtain ⟨d, first⟩ := Option.isSome_iff_exists.1 found
  obtain ⟨n, -, digits⟩ := List.exists_of_findSome?_eq_some first
  simp only [shortest, first, Option.getD_some]
  exact Interval.withDigits?_contains digits

end Script.Number
