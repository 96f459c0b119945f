/-
# Script.Proofs.Number.Rounding -- the fractions that are rounded to a double

A positive fraction has its highest binary place where its logarithm says (`highestPlace_eq_log`),
so the last place of a double near it is known as soon as the fraction is measured in such places
(`lastPlace_eq`), and the number of places is the whole number near what is measured
(`roundDiv_of_near`).

`Interval.ofBinary` keeps the ends of the interval of a double as natural numbers.  `Contains` says
of a fraction that it lies between them, and `contains_ofBinary` says so in last places of the
double: half a place away at most, below a power of two a quarter, and less than that when the
mantissa is odd.  Such a fraction is rounded to the double (`nearest_of_contains`).  Right below a
power of two the last place is half of that of the double; the fraction has `2 ^ 53` of those, and
the carry leads to the double.
-/
import Mathlib
import Script.Number.Rounding
import Script.Number.Shortest
import Script.Proofs.Number.Parts
import Script.Proofs.Number.Value

namespace Script.Number

set_option autoImplicit false

variable {num den : Nat}

/-! ## Between two ends -/

/-- The fraction lies between the ends, which are taken along or left out. -/
def Between (closed : Bool) (low high r : ℚ) : Prop :=
  if closed then low ≤ r ∧ r ≤ high else low < r ∧ r < high

namespace Between

variable {closed : Bool} {low high low' high' r : ℚ}

theorem bounds (between : Between closed low high r) : low ≤ r ∧ r ≤ high := by
  unfold Between at between
  split at between
  · exact between
  · exact ⟨between.1.le, between.2.le⟩

theorem strict (between : Between closed low high r) (opened : closed = false) :
    low < r ∧ r < high := by
  rwa [Between, if_neg (by rw [opened]; decide)] at between

theorem widen (between : Between closed low high r) (lower : low' ≤ low) (higher : high ≤ high') :
    Between closed low' high' r := by
  cases closed with
  | true =>
      simp only [Between, if_true] at *
      exact ⟨lower.trans between.1, between.2.trans higher⟩
  | false =>
      simp only [Between, Bool.false_eq_true, if_false] at *
      exact ⟨lower.trans_lt between.1, between.2.trans_le higher⟩

/-- The unit in which all three are measured does not matter. -/
theorem mul_iff {unit : ℚ} (positive : 0 < unit) :
    Between closed (low * unit) (high * unit) (r * unit) ↔ Between closed low high r := by
  unfold Between
  rw [mul_le_mul_iff_left₀ positive, mul_le_mul_iff_left₀ positive, mul_lt_mul_iff_left₀ positive,
    mul_lt_mul_iff_left₀ positive]

end Between

/-! ## Whole numbers near a fraction -/

/-- The fraction is half a unit away from the whole number at most, and less when that is odd. -/
def Near (m : Nat) (r : ℚ) : Prop :=
  Between (m % 2 = 0) (m - 1 / 2) (m + 1 / 2) r

/-- What is behind the point of a fraction, and how it compares to a half. -/
theorem exists_fraction (num : Nat) (positive : 0 < den) :
    ∃ f : ℚ, (num : ℚ) / den = (num / den : ℕ) + f ∧ 0 ≤ f ∧ f < 1 ∧
      (2 * (num % den) < den ↔ f < 1 / 2) ∧ (den < 2 * (num % den) ↔ 1 / 2 < f) := by
  have above : (0 : ℚ) < den := by exact_mod_cast positive
  refine ⟨(num % den : ℕ) / (den : ℚ), ?_, by positivity, ?_, ?_, ?_⟩
  · have parts : ((den * (num / den) + num % den : ℕ) : ℚ) = num := by rw [Nat.div_add_mod]
    push_cast at parts
    rw [← parts, add_div, mul_div_cancel_left₀ _ above.ne']
  · rw [div_lt_one above]
    exact_mod_cast Nat.mod_lt num positive
  · rw [div_lt_iff₀ above, ← @Nat.cast_lt ℚ]
    push_cast
    constructor <;> intro _ <;> linarith
  · rw [lt_div_iff₀ above, ← @Nat.cast_lt ℚ]
    push_cast
    constructor <;> intro _ <;> linarith

/-- A fraction is rounded to the whole number that it is near. -/
theorem roundDiv_of_near {m : Nat} (positive : 0 < den) (near : Near m ((num : ℚ) / den)) :
    roundDiv num den = m := by
  obtain ⟨f, whole, least, most, small, large⟩ := exists_fraction num positive
  simp only [roundDiv, small, large]
  generalize num / den = below at whole
  rw [whole] at near
  obtain ⟨low, high⟩ := near.bounds
  -- the whole number is the one below the fraction or the next
  have upper : m < below + 2 := by
    exact_mod_cast (by linarith : (m : ℚ) < below + 2)
  have lower : below < m + 1 := by
    exact_mod_cast (by linarith : (below : ℚ) < m + 1)
  obtain rfl | rfl : m = below ∨ m = below + 1 := by omega
  · have half : f ≤ 1 / 2 := by linarith
    rw [if_neg half.not_gt]
    split
    · rfl
    · rename_i middle
      have even : m % 2 = 0 := by
        by_contra odd
        have := (near.strict (decide_eq_false odd)).2
        exact middle (by linarith)
      rw [even, Nat.add_zero]
  · push_cast at low
    have half : 1 / 2 ≤ f := by linarith
    rw [if_neg half.not_gt]
    split
    · rfl
    · rename_i middle
      have odd : below % 2 = 1 := by
        by_contra even
        have := (near.strict (decide_eq_false (by omega))).1
        push_cast at this
        exact middle (by linarith)
      rw [odd]

/-! ## The places of a double -/

/-- The highest binary place of a positive fraction is where its logarithm says. -/
theorem highestPlace_eq_log (some : 0 < num) (positive : 0 < den) :
    highestPlace num den = Int.log 2 ((num : ℚ) / den) := by
  have below : (0 : ℚ) < den := by exact_mod_cast positive
  have ratio : (0 : ℚ) < num / den := div_pos (by exact_mod_cast some) below
  -- the difference of the logarithms is right or one too high
  have low : (num.log2 : ℤ) - (den.log2 + 1) ≤ Int.log 2 ((num : ℚ) / den) := by
    refine (Int.zpow_le_iff_le_log Nat.one_lt_two ratio).1 ?_
    have numLow : 2 ^ num.log2 ≤ num := Nat.log2_self_le some.ne'
    have denHigh : den < 2 ^ (den.log2 + 1) := Nat.lt_log2_self
    rw [zpow_sub₀ (by norm_num)]
    refine div_le_div₀ (by positivity) ?_ below ?_
    · exact_mod_cast numLow
    · exact_mod_cast denHigh.le
  have high : Int.log 2 ((num : ℚ) / den) < (num.log2 : ℤ) + 1 - den.log2 := by
    refine (Int.lt_zpow_iff_log_lt Nat.one_lt_two ratio).1 ?_
    have numHigh : num < 2 ^ (num.log2 + 1) := Nat.lt_log2_self
    have denLow : 2 ^ den.log2 ≤ den := Nat.log2_self_le positive.ne'
    rw [zpow_sub₀ (by norm_num)]
    refine div_lt_div₀ ?_ ?_ (by positivity) (by positivity)
    · exact_mod_cast numHigh
    · exact_mod_cast denLow
  have guess : den * pow2 ((num.log2 : ℤ) - den.log2).toNat ≤
      num * pow2 (-((num.log2 : ℤ) - den.log2)).toNat ↔
        (num.log2 : ℤ) - den.log2 ≤ Int.log 2 ((num : ℚ) / den) := by
    rw [← Int.zpow_le_iff_le_log Nat.one_lt_two ratio, Nat.cast_ofNat, Parts.two_zpow,
      div_le_div_iff₀ (by positivity) below, mul_comm (Nat.cast _)]
    exact_mod_cast Iff.rfl
  rw [highestPlace]
  split
  · rename_i right
    have := guess.1 right
    omega
  · rename_i wrong
    have := mt guess.2 wrong
    omega

/-- A fraction that has at most `2 ^ 53` places `2 ^ q`, and as many as a mantissa unless these are
the least, has its last place there. -/
theorem lastPlace_eq {q : Int} (some : 0 < num) (positive : 0 < den) (least : leastExponent ≤ q)
    (below : (num : ℚ) / den < 2 ^ 53 * 2 ^ q)
    (full : 2 ^ 52 * 2 ^ q ≤ (num : ℚ) / den ∨ q = leastExponent) : lastPlace num den = q := by
  have ratio : (0 : ℚ) < num / den :=
    div_pos (by exact_mod_cast some) (by exact_mod_cast positive)
  have power (k : ℕ) : (2 : ℚ) ^ k * 2 ^ q = ((2 : ℕ) : ℚ) ^ ((k : ℤ) + q) := by
    rw [Nat.cast_ofNat, zpow_add₀ two_ne_zero, zpow_natCast]
  rw [power, Int.lt_zpow_iff_log_lt Nat.one_lt_two ratio] at below
  rw [power, Int.zpow_le_iff_le_log Nat.one_lt_two ratio] at full
  rw [lastPlace, highestPlace_eq_log some positive]
  omega

namespace Parts

/-- A positive fraction is rounded in its last places. -/
theorem nearest_eq_ofPlaces {negative : Bool} {m : Nat} {q : Int} (some : 0 < num)
    (positive : 0 < den) (least : leastExponent ≤ q) (below : (num : ℚ) / den / 2 ^ q < 2 ^ 53)
    (full : 2 ^ 52 ≤ (num : ℚ) / den / 2 ^ q ∨ q = leastExponent)
    (near : Near m ((num : ℚ) / den / 2 ^ q)) :
    nearest negative num den = ofPlaces negative m q := by
  have power : (0 : ℚ) < 2 ^ q := by positivity
  have last : lastPlace num den = q := by
    rw [div_lt_iff₀ power] at below
    rw [le_div_iff₀ power] at full
    exact lastPlace_eq some positive least below full
  have shifted : (num : ℚ) / den / 2 ^ q =
      ((num * 2 ^ (-q).toNat : ℕ) : ℚ) / (den * 2 ^ q.toNat : ℕ) := by
    rw [two_zpow, div_div_div_eq, Nat.cast_mul, Nat.cast_mul]
  rw [shifted] at near
  have rounded := roundDiv_of_near (Nat.mul_pos positive (Nat.two_pow_pos _)) near
  rw [nearest, if_neg some.ne']
  simp only [last, pow2, Nat.pow_eq, rounded]

theorem ofPlaces_canonical {negative : Bool} {m : Nat} {q : Int}
    (canonical : (finite negative m q).Canonical) :
    ofPlaces negative m q = .finite negative m q := by
  obtain ⟨below, -, most, -⟩ := canonical
  have room : m ≠ pow2 53 := below.ne
  simp only [ofPlaces, if_neg room, greatestExponent, if_neg most.not_gt]

/-- One place more than fifty-three bits hold is a power of two. -/
theorem ofPlaces_carry {negative : Bool} {q : Int} (most : q ≤ 971) :
    ofPlaces negative (2 ^ 53) (q - 1) = .finite negative (2 ^ 52) q := by
  have carry : (2 ^ 53 : ℕ) = pow2 53 := rfl
  simp only [ofPlaces, if_pos carry, sub_add_cancel, greatestExponent, if_neg most.not_gt]
  rfl

/-- Right below a power of two there is a last place less, and a carry. -/
theorem nearest_below_power {negative : Bool} {q : Int} (some : 0 < num) (positive : 0 < den)
    (least : leastExponent < q) (most : q ≤ 971)
    (low : 2 ^ 52 - 1 / 4 ≤ (num : ℚ) / den / 2 ^ q) (high : (num : ℚ) / den / 2 ^ q < 2 ^ 52) :
    nearest negative num den = .finite negative (2 ^ 52) q := by
  have finer : (num : ℚ) / den / 2 ^ (q - 1) = 2 * ((num : ℚ) / den / 2 ^ q) := by
    rw [zpow_sub_one₀ two_ne_zero]
    field_simp
  have near : Near (2 ^ 53) ((num : ℚ) / den / 2 ^ (q - 1)) := by
    rw [finer]
    refine ⟨?_, ?_⟩ <;> push_cast <;> linarith
  have lower : leastExponent ≤ q - 1 := by omega
  rw [nearest_eq_ofPlaces some positive lower (by linarith) (.inl (by linarith)) near]
  exact ofPlaces_carry most

end Parts

/-! ## The interval of a double -/

namespace Interval

/-- The fraction lies in the interval. -/
def Contains (i : Interval) (r : ℚ) : Prop :=
  Between i.closed i.low i.high (r * i.den)

/-- How far the interval of a double with the mantissa reaches down, in its last places. -/
def reach (m : Nat) : ℚ :=
  if m = 2 ^ 52 then 1 / 4 else 1 / 2

theorem reach_le (m : Nat) : reach m ≤ 1 / 2 := by
  unfold reach
  split <;> norm_num

/-- The interval of a double, measured in its last places. -/
theorem contains_ofBinary {m : Nat} {q : Int} {r : ℚ} (positive : 0 < m) :
    (ofBinary m q).Contains r ↔
      Between (m % 2 = 0) (m - reach m) (m + 1 / 2) (r / 2 ^ q) := by
  -- the ends are numbers of quarters
  have unit : (0 : ℚ) < 4 * (2 ^ (q - 2).toNat : ℕ) := by positivity
  have scaled : r * (2 ^ (2 - q).toNat : ℕ) = r / 2 ^ q * (4 * (2 ^ (q - 2).toNat : ℕ)) := by
    have quarter : (2 : ℚ) ^ q / 4 = (2 ^ (q - 2).toNat : ℕ) / (2 ^ (2 - q).toNat : ℕ) := by
      have power := Parts.two_zpow (q - 2)
      rw [neg_sub, zpow_sub₀ two_ne_zero] at power
      exact_mod_cast power
    rw [div_eq_div_iff (by norm_num) (by positivity)] at quarter
    field_simp
    linear_combination r * quarter
  have low : (((4 * m - if m = 2 ^ 52 then 1 else 2) * 2 ^ (q - 2).toNat : ℕ) : ℚ) =
      (m - reach m) * (4 * (2 ^ (q - 2).toNat : ℕ)) := by
    unfold reach
    split <;> rw [Nat.cast_mul, Nat.cast_sub (by omega)] <;> push_cast <;> ring
  have high : (((4 * m + 2) * 2 ^ (q - 2).toNat : ℕ) : ℚ) =
      (m + 1 / 2) * (4 * (2 ^ (q - 2).toNat : ℕ)) := by
    push_cast
    ring
  rw [← Between.mul_iff unit, ← low, ← high, ← scaled]
  rfl

/-- A fraction in the interval of a double is near its mantissa, in last places. -/
theorem near_of_contains {m : Nat} {q : Int} {r : ℚ} (positive : 0 < m)
    (inside : (ofBinary m q).Contains r) : Near m (r / 2 ^ q) := by
  have short := reach_le m
  exact ((contains_ofBinary positive).1 inside).widen (by linarith) le_rfl

/-- A fraction in the interval of a double is rounded to the double. -/
theorem nearest_of_contains {m : Nat} {q : Int}
    (canonical : (Parts.finite false m q).Canonical) (some : 0 < m) (positive : 0 < den)
    (inside : (ofBinary m q).Contains ((num : ℚ) / den)) :
    Parts.nearest false num den = .finite false m q := by
  obtain ⟨below, least, most, full⟩ := canonical
  have near := near_of_contains some inside
  obtain ⟨low, high⟩ := near.bounds
  have one : (1 : ℚ) ≤ m := by exact_mod_cast some
  have fits : (m : ℚ) + 1 ≤ 2 ^ 53 := by exact_mod_cast below
  have numPositive : 0 < num := by
    by_contra zero
    obtain rfl : num = 0 := by omega
    rw [Nat.cast_zero, zero_div, zero_div] at low
    linarith
  by_cases regular : 2 ^ 52 ≤ (num : ℚ) / den / 2 ^ q ∨ q = leastExponent
  · rw [Parts.nearest_eq_ofPlaces numPositive positive least (by linarith) regular near]
    exact Parts.ofPlaces_canonical ⟨below, least, most, full⟩
  · -- the fraction is right below the power of two that the double is
    obtain ⟨less, normal⟩ := not_or.1 regular
    rw [not_le] at less
    have power : m = 2 ^ 52 := by
      refine Nat.le_antisymm (Nat.le_of_lt_succ ?_) (full.resolve_right normal)
      exact_mod_cast (by linarith : (m : ℚ) < 2 ^ 52 + 1)
    subst power
    have quarter := ((contains_ofBinary some).1 inside).bounds.1
    rw [reach, if_pos rfl] at quarter
    exact Parts.nearest_below_power numPositive positive (by omega) most (by exact_mod_cast quarter)
      less

end Interval

end Script.Number
