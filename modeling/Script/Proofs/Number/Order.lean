/-
# Script.Proofs.Number.Order -- the order of doubles

A double other than not-a-number is a rational number or one of the two infinities
(`extended?`).  It is less than another, or at most the other, if that number is (`lt_iff`,
`le_iff`).  The library looks at the exponents first and then at the mantissas, which is right of
canonical parts (`compare_canonical`).
-/
import Mathlib
import Script.Proofs.Number.Parts
import Script.Proofs.Number.Value

namespace Script.Number

set_option autoImplicit false

open Float.Model (UnpackedFloat Format)

namespace Parts

/-- The number that the parts stand for, the infinities counted as numbers. -/
def extended? : Parts → Option (WithBot (WithTop ℚ))
  | .notANumber => none
  | .infinite negative => some (if negative then ⊥ else ⊤)
  | .finite negative m q => some ((rational negative m q : WithTop ℚ))

/-- Mantissas at a greater exponent are greater. -/
theorem lt_of_exponent_lt {m m' : Nat} {q q' : Int} (below : m < 2 ^ 53) (full : 2 ^ 52 ≤ m')
    (less : q < q') : (m : ℚ) * 2 ^ q < m' * 2 ^ q' := by
  have next : (2 : ℚ) ^ (q + 1) ≤ 2 ^ q' := zpow_le_zpow_right₀ (by norm_num) less
  have power : (0 : ℚ) < 2 ^ q := by positivity
  calc (m : ℚ) * 2 ^ q < (2 ^ 53 : ℕ) * 2 ^ q := by
        exact mul_lt_mul_of_pos_right (by exact_mod_cast below) power
    _ = (2 ^ 52 : ℕ) * 2 ^ (q + 1) := by
        rw [zpow_add_one₀ two_ne_zero]
        push_cast
        ring
    _ ≤ m' * 2 ^ q' := by
        exact mul_le_mul (by exact_mod_cast full) next (by positivity) (by positivity)

/-- Comparing canonical parts by exponent and then by mantissa compares what they stand for. -/
theorem compare_canonical {m m' : Nat} {q q' : Int} (first : (finite false m q).Canonical)
    (second : (finite false m' q').Canonical) :
    (compare q q').then (compare m m') = compare ((m : ℚ) * 2 ^ q) (m' * 2 ^ q') := by
  obtain ⟨below, least, -, full⟩ := first
  obtain ⟨below', least', -, full'⟩ := second
  rcases lt_trichotomy q q' with less | rfl | greater
  · have full' := full'.resolve_right (by omega)
    rw [compare_lt_iff_lt.2 less, compare_lt_iff_lt.2 (lt_of_exponent_lt below full' less)]
    rfl
  · have power : (0 : ℚ) < 2 ^ q := by positivity
    rw [compare_eq_iff_eq.2 rfl]
    change compare m m' = _
    rcases lt_trichotomy m m' with less | rfl | greater
    · rw [compare_lt_iff_lt.2 less, eq_comm, compare_lt_iff_lt]
      exact mul_lt_mul_of_pos_right (by exact_mod_cast less) power
    · rw [compare_eq_iff_eq.2 rfl, compare_eq_iff_eq.2 rfl]
    · rw [compare_gt_iff_gt.2 greater, eq_comm, compare_gt_iff_gt]
      exact mul_lt_mul_of_pos_right (by exact_mod_cast greater) power
  · have full := full.resolve_right (by omega)
    rw [compare_gt_iff_gt.2 greater, compare_gt_iff_gt.2 (lt_of_exponent_lt below' full greater)]
    rfl

theorem pos_of_mantissa {m : Nat} (positive : 0 < m) (q : Int) : (0 : ℚ) < m * 2 ^ q :=
  mul_pos (by exact_mod_cast positive) (by positivity)

theorem rational_zero (negative : Bool) (q : Int) : rational negative 0 q = 0 := by
  cases negative <;> simp [rational]

theorem coe_lt_coe {x y : ℚ} :
    ((x : WithTop ℚ) : WithBot (WithTop ℚ)) < ((y : WithTop ℚ) : WithBot (WithTop ℚ)) ↔ x < y :=
  WithBot.coe_lt_coe.trans WithTop.coe_lt_coe

theorem compare_coe (x y : ℚ) :
    compare ((x : WithTop ℚ) : WithBot (WithTop ℚ)) ((y : WithTop ℚ) : WithBot (WithTop ℚ)) =
      compare x y := by
  rcases lt_trichotomy x y with less | rfl | greater
  · rw [compare_lt_iff_lt.2 less, compare_lt_iff_lt.2 (coe_lt_coe.2 less)]
  · rw [compare_eq_iff_eq.2 rfl, compare_eq_iff_eq.2 rfl]
  · rw [compare_gt_iff_gt.2 greater, compare_gt_iff_gt.2 (coe_lt_coe.2 greater)]

theorem compare_neg (x y : ℚ) : compare (-x) (-y) = (compare x y).swap := by
  rcases lt_trichotomy x y with less | rfl | greater
  · rw [compare_lt_iff_lt.2 less, compare_gt_iff_gt.2 (neg_lt_neg less)]
    rfl
  · rw [compare_eq_iff_eq.2 rfl, compare_eq_iff_eq.2 rfl]
    rfl
  · rw [compare_gt_iff_gt.2 greater, compare_lt_iff_lt.2 (neg_lt_neg greater)]
    rfl

/-- The library compares what the parts stand for. -/
theorem compare_eq {u v : UnpackedFloat} {a b : WithBot (WithTop ℚ)}
    (first : (ofUnpacked u).Canonical) (second : (ofUnpacked v).Canonical)
    (left : (ofUnpacked u).extended? = some a) (right : (ofUnpacked v).extended? = some b) :
    u.compare v = some (compare a b) := by
  have less : a < b → some Ordering.lt = some (compare a b) :=
    fun below => congrArg some (compare_lt_iff_lt.2 below).symm
  have greater : b < a → some Ordering.gt = some (compare a b) :=
    fun above => congrArg some (compare_gt_iff_gt.2 above).symm
  have equal : a = b → some Ordering.eq = some (compare a b) :=
    fun same => congrArg some (compare_eq_iff_eq.2 same).symm
  cases u <;> cases v <;> cases left <;> cases right
  case infinity.infinity s s' =>
    cases s <;> cases s'
    · exact equal rfl
    · exact less bot_lt_top
    · exact greater bot_lt_top
    · exact equal rfl
  case infinity.zero s s' =>
    cases s
    · exact less (WithBot.bot_lt_coe _)
    · exact greater (WithBot.coe_lt_coe.2 (WithTop.coe_lt_top _))
  case infinity.finite s s' m q positive =>
    cases s
    · exact less (WithBot.bot_lt_coe _)
    · exact greater (WithBot.coe_lt_coe.2 (WithTop.coe_lt_top _))
  case zero.infinity s s' =>
    cases s'
    · exact greater (WithBot.bot_lt_coe _)
    · exact less (WithBot.coe_lt_coe.2 (WithTop.coe_lt_top _))
  case finite.infinity s m q positive s' =>
    cases s <;> cases s'
    · exact greater (WithBot.bot_lt_coe _)
    · exact less (WithBot.coe_lt_coe.2 (WithTop.coe_lt_top _))
    · exact greater (WithBot.bot_lt_coe _)
    · exact less (WithBot.coe_lt_coe.2 (WithTop.coe_lt_top _))
  case zero.zero s s' =>
    exact equal (by rw [rational_zero, rational_zero])
  case zero.finite s s' m q positive =>
    rw [rational_zero] at less greater ⊢
    have size := pos_of_mantissa positive q
    cases s'
    · exact greater (coe_lt_coe.2 (neg_neg_of_pos size))
    · exact less (coe_lt_coe.2 size)
  case finite.zero s m q positive s' =>
    rw [rational_zero] at less greater ⊢
    have size := pos_of_mantissa positive q
    cases s
    · exact less (coe_lt_coe.2 (neg_neg_of_pos size))
    · exact greater (coe_lt_coe.2 size)
  case finite.finite s m q positive s' m' q' positive' =>
    have size := pos_of_mantissa positive q
    have size' := pos_of_mantissa positive' q'
    have same := compare_canonical first second
    cases s <;> cases s'
    · refine congrArg some (Eq.trans ?_ (compare_coe _ _).symm)
      exact (congrArg Ordering.swap same).trans (compare_neg _ _).symm
    · exact less (coe_lt_coe.2 ((neg_neg_of_pos size).trans size'))
    · exact greater (coe_lt_coe.2 ((neg_neg_of_pos size').trans size))
    · exact congrArg some (same.trans (compare_coe _ _).symm)

end Parts

/-- The number that a double is, the infinities counted as numbers. -/
def extended? (x : Float) : Option (WithBot (WithTop ℚ)) :=
  (Parts.ofFloat x).extended?

variable {x y : Float} {a b : WithBot (WithTop ℚ)}

theorem extended?_of_value? {r : ℚ} (value : value? x = some r) :
    extended? x = some ((r : WithTop ℚ) : WithBot (WithTop ℚ)) := by
  unfold extended? value? at *
  cases parts : Parts.ofFloat x with
  | finite negative m q =>
      rw [parts] at value
      rw [← Option.some.inj value]
      rfl
  | notANumber | infinite => rw [parts] at value; cases value

/-- Only not-a-number is no number. -/
theorem extended?_eq_none_iff : extended? x = none ↔ x.isNaN = true := by
  rw [extended?, Parts.ofFloat_eq_ofUnpacked]
  change _ ↔ x.toModel.unpack.isNaN = true
  cases x.toModel.unpack <;> simp [Parts.ofUnpacked, Parts.extended?, UnpackedFloat.isNaN]

theorem exists_extended? (number : x.isNaN = false) : ∃ a, extended? x = some a := by
  refine Option.ne_none_iff_exists'.1 fun none => ?_
  rw [extended?_eq_none_iff.1 none] at number
  cases number

theorem compare_unpacked (left : extended? x = some a) (right : extended? y = some b) :
    x.toModel.unpack.compare y.toModel.unpack = some (compare a b) := by
  rw [extended?, Parts.ofFloat_eq_ofUnpacked] at left right
  refine Parts.compare_eq ?_ ?_ left right
  · exact Parts.ofFloat_eq_ofUnpacked x ▸ Parts.canonical_ofFloat x
  · exact Parts.ofFloat_eq_ofUnpacked y ▸ Parts.canonical_ofFloat y

/-- The order of doubles is that of the numbers they are. -/
theorem lt_iff (left : extended? x = some a) (right : extended? y = some b) : x < y ↔ a < b := by
  have compared := compare_unpacked left right
  change decide ((x.toModel.unpack.compare y.toModel.unpack == some .lt) = true) = true ↔ _
  rw [compared, decide_eq_true_iff, beq_iff_eq, Option.some.injEq, compare_lt_iff_lt]

theorem le_iff (left : extended? x = some a) (right : extended? y = some b) : x ≤ y ↔ a ≤ b := by
  have compared := compare_unpacked left right
  change decide ((x.toModel.unpack.compare y.toModel.unpack).any (·.isLE) = true) = true ↔ _
  rw [compared, decide_eq_true_iff, Option.any_some, ← Ordering.ne_gt_iff_isLE]
  exact compare_le_iff_le

/-- Nothing is less than not-a-number, or at most that, nor the other way round. -/
theorem not_ordered_of_isNaN (nan : x.isNaN = true ∨ y.isNaN = true) : ¬ x < y ∧ ¬ x ≤ y := by
  have none : x.toModel.unpack.compare y.toModel.unpack = none := by
    rcases nan with left | right
    · change x.toModel.unpack.isNaN = true at left
      rw [UnpackedFloat.isNaN_iff.1 left]
      rfl
    · change y.toModel.unpack.isNaN = true at right
      rw [UnpackedFloat.isNaN_iff.1 right]
      cases x.toModel.unpack <;> rfl
  constructor
  · change ¬ decide ((x.toModel.unpack.compare y.toModel.unpack == some .lt) = true) = true
    rw [none]
    decide
  · change ¬ decide ((x.toModel.unpack.compare y.toModel.unpack).any (·.isLE) = true) = true
    rw [none]
    decide

end Script.Number
