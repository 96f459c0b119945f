/-
# Script.Proofs.Number.Parts -- the parts of a double and the library's

The library computes with doubles by taking them apart and rounding what it makes of the parts.  Its
parts are those of `Parts.ofFloat`, but for the two zeros, which it keeps by themselves
(`ofFloat_eq_ofUnpacked`).  So what it says of doubles can be said of sign, mantissa and exponent.

Parts are in canonical form when the mantissa has fifty-three bits, or fewer at the least exponent
(`Canonical`).  Those of a double are (`canonical_ofFloat`), a double is what its parts are packed
to (`eq_of_ofFloat`), and canonical parts are those of what they are packed to (`ofFloat_pack`).
-/
import Mathlib
import Script.Number.Binary

namespace Script.Number

set_option autoImplicit false

open Float.Model (UnpackedFloat Format)

namespace Parts

/-- The parts of a double that the library has taken apart. -/
def ofUnpacked : UnpackedFloat → Parts
  | .notANumber => .notANumber
  | .infinity sign => .infinite (sign == .negative)
  | .zero sign => .finite (sign == .negative) 0 leastExponent
  | .finite sign mantissa exponent _ => .finite (sign == .negative) mantissa exponent

/-- The mantissa has fifty-three bits, or fewer at the least exponent, and the exponent is no
greater than that of the largest double. -/
def Canonical : Parts → Prop
  | .finite _ mantissa exponent =>
      mantissa < 2 ^ 53 ∧ leastExponent ≤ exponent ∧ exponent ≤ 971 ∧
        (2 ^ 52 ≤ mantissa ∨ exponent = leastExponent)
  | _ => True

theorem toNat_unpackMantissa (b : BitVec Format.binary64.numBits) :
    (UnpackedFloat.unpackMantissa b).toNat = b.toNat % 2 ^ 52 := by
  rw [UnpackedFloat.unpackMantissa_def, BitVec.extractLsb'_toNat, Nat.shiftRight_zero]

theorem toNat_unpackExponent (b : BitVec Format.binary64.numBits) :
    (UnpackedFloat.unpackExponent b).toNat = b.toNat / 2 ^ 52 % 2 ^ 11 := by
  rw [UnpackedFloat.unpackExponent_def, BitVec.extractLsb'_toNat, Nat.shiftRight_eq_div_pow]

theorem toNat_unpackSign (b : BitVec Format.binary64.numBits) :
    (UnpackedFloat.unpackSign b).toNat = b.toNat / 2 ^ 63 % 2 := by
  rw [UnpackedFloat.unpackSign_def, BitVec.extractLsb'_toNat, Nat.shiftRight_eq_div_pow]
  rfl

theorem ofBitVec_beq_negative :
    ∀ sign : BitVec 1, (UnpackedFloat.Sign.ofBitVec sign == .negative) = (sign.toNat == 1) := by
  decide

/-- The top bit is the sign. -/
theorem sign_eq (b : BitVec Format.binary64.numBits) :
    (UnpackedFloat.Sign.ofBitVec (UnpackedFloat.unpackSign b) == .negative) =
      (b.toNat / pow2 63 % 2 == 1) := by
  rw [ofBitVec_beq_negative, toNat_unpackSign]
  rfl

theorem ofBits_eq_ofUnpacked (b : BitVec Format.binary64.numBits) :
    ofBits b.toNat = ofUnpacked (UnpackedFloat.unpack Format.binary64 b) := by
  have fraction := toNat_unpackMantissa b
  have field := toNat_unpackExponent b
  have sign := sign_eq b
  have full : UnpackedFloat.unpackExponent b = -1#_ ↔ b.toNat / 2 ^ 52 % 2 ^ 11 = 2047 := by
    rw [← BitVec.toNat_inj, field]
    rfl
  have least : UnpackedFloat.unpackExponent b = 0#_ ↔ b.toNat / 2 ^ 52 % 2 ^ 11 = 0 := by
    rw [← BitVec.toNat_inj, field]
    rfl
  have none : UnpackedFloat.unpackMantissa b = 0#_ ↔ b.toNat % 2 ^ 52 = 0 := by
    rw [← BitVec.toNat_inj, fraction]
    rfl
  simp only [ofBits, ← sign, UnpackedFloat.unpack, pow2, Nat.pow_eq]
  by_cases infinite : b.toNat / 2 ^ 52 % 2 ^ 11 = 2047
  · rw [if_pos infinite, if_pos (full.2 infinite)]
    by_cases zero : b.toNat % 2 ^ 52 = 0
    · rw [if_pos zero, if_pos (none.2 zero)]
      rfl
    · rw [if_neg zero, if_neg (mt none.1 zero)]
      rfl
  rw [if_neg infinite, if_neg (mt full.1 infinite)]
  by_cases subnormal : b.toNat / 2 ^ 52 % 2 ^ 11 = 0
  · rw [if_pos subnormal, if_pos (least.2 subnormal)]
    by_cases zero : b.toNat % 2 ^ 52 = 0
    · rw [dif_pos (none.2 zero), zero]
      rfl
    · rw [dif_neg (mt none.1 zero), ofUnpacked, fraction, field, subnormal]
      rfl
  · rw [if_neg subnormal, if_neg (mt least.1 subnormal), ofUnpacked, field]
    have leading : (1#1 ++ UnpackedFloat.unpackMantissa b).toNat = 2 ^ 52 + b.toNat % 2 ^ 52 := by
      rw [BitVec.toNat_append, fraction, Nat.shiftLeft_eq]
      exact (Nat.two_pow_add_eq_or_of_lt (Nat.mod_lt _ (Nat.two_pow_pos 52)) 1).symm
    rw [leading]
    rfl

/-- What a double is taken apart to here and in the library. -/
theorem ofFloat_eq_ofUnpacked (x : Float) : ofFloat x = ofUnpacked x.toModel.unpack :=
  ofBits_eq_ofUnpacked x.toBits.toBitVec

/-! ## Canonical parts -/

theorem canonical_ofBits (bits : Nat) : (ofBits bits).Canonical := by
  simp only [ofBits, pow2, Nat.pow_eq]
  have fraction : bits % 2 ^ 52 < 2 ^ 52 := Nat.mod_lt _ (Nat.two_pow_pos 52)
  have field : bits / 2 ^ 52 % 2 ^ 11 < 2 ^ 11 := Nat.mod_lt _ (Nat.two_pow_pos 11)
  split
  · split <;> trivial
  split
  · exact ⟨by omega, by decide, by decide, .inr rfl⟩
  · refine ⟨by omega, ?_, by omega, .inl (Nat.le_add_right _ _)⟩
    rw [leastExponent]
    omega

theorem canonical_ofFloat (x : Float) : (ofFloat x).Canonical :=
  canonical_ofBits _

/-- The parts of a bit pattern are those of the double it stands for. -/
theorem ofFloat_ofBits (bits : UInt64) : ofFloat (Float.ofBits bits) = ofBits bits.toNat := by
  have same : (Float.ofBits bits).toModel.unpack =
      UnpackedFloat.unpack Format.binary64 bits.toBitVec := by
    change UnpackedFloat.unpack _ (UnpackedFloat.pack _ (UnpackedFloat.unpack _ _)) = _
    rw [UnpackedFloat.pack_unpack]
    split
    · rename_i notANumber
      rw [UnpackedFloat.isNaNBits, decide_eq_true_eq] at notANumber
      rw [UnpackedFloat.unpack_packedNaN, UnpackedFloat.unpack, if_pos notANumber.1,
        if_neg notANumber.2]
    · rfl
  rw [ofFloat_eq_ofUnpacked, same]
  exact (ofBits_eq_ofUnpacked bits.toBitVec).symm

theorem sign_inj {s s' : UnpackedFloat.Sign} (same : (s == .negative) = (s' == .negative)) :
    s = s' := by
  cases s <;> cases s' <;> first
    | rfl
    | cases same

theorem ofUnpacked_inj {u v : UnpackedFloat} (same : ofUnpacked u = ofUnpacked v) : u = v := by
  cases u <;> cases v <;> simp only [ofUnpacked, reduceCtorEq, infinite.injEq, finite.injEq] at same
  case notANumber.notANumber => rfl
  case infinity.infinity s s' => rw [sign_inj same]
  case zero.zero s s' => rw [sign_inj same.1]
  case finite.finite s m q _ s' m' q' _ =>
    obtain ⟨sign, rfl, rfl⟩ := same
    rw [sign_inj sign]
  all_goals omega

/-- Doubles with the same parts are the same. -/
theorem eq_of_ofFloat {x y : Float} (same : ofFloat x = ofFloat y) : x = y := by
  rw [ofFloat_eq_ofUnpacked, ofFloat_eq_ofUnpacked] at same
  have bits := (UnpackedFloat.unpack_inj_of_valid x.toModel.valid y.toModel.valid).1
    (ofUnpacked_inj same)
  exact Float.toBits_inj.1 (UInt64.toBitVec_inj.1 bits)

/-- A bit pattern with a sign, an exponent field and a fraction. -/
theorem ofBits_fields (negative : Bool) (field fraction : Nat) (small : field < 2047)
    (below : fraction < 2 ^ 52) :
    ofBits ((if negative then pow2 63 else 0) + (field * 2 ^ 52 + fraction)) =
      if field = 0 then .finite negative fraction leastExponent
      else .finite negative (2 ^ 52 + fraction) (field - 1075) := by
  simp only [ofBits, pow2, Nat.pow_eq]
  generalize given : (if negative then 2 ^ 63 else 0) + (field * 2 ^ 52 + fraction) = bits
  have sign : (bits / 2 ^ 63 % 2 == 1) = negative := by
    cases negative <;> simp only [Bool.false_eq_true, if_false, if_true] at given
    · exact beq_false_of_ne (by omega)
    · exact beq_iff_eq.2 (by omega)
  have high : bits / 2 ^ 52 % 2 ^ 11 = field := by
    cases negative <;> simp only [Bool.false_eq_true, if_false, if_true] at given <;> omega
  have low : bits % 2 ^ 52 = fraction := by
    cases negative <;> simp only [Bool.false_eq_true, if_false, if_true] at given <;> omega
  rw [sign, high, low, if_neg (Nat.ne_of_lt small)]

/-- In canonical parts nothing has to be shifted. -/
theorem magnitudeBits_eq {m : Nat} {q : Int} (below : m < 2 ^ 53)
    (full : 2 ^ 52 ≤ m ∨ q = leastExponent) :
    magnitudeBits m q = if m < 2 ^ 52 then m else (q + 1075).toNat * 2 ^ 52 + (m - 2 ^ 52) := by
  have room : min (52 - m.log2) (q - leastExponent).toNat = 0 := by
    rcases full with full | rfl
    · have places : m.log2 = 52 := (Nat.log2_eq_iff (by omega)).2 ⟨full, below⟩
      rw [places]
      exact Nat.zero_min _
    · rw [sub_self]
      exact Nat.min_zero _
  rw [magnitudeBits, room, Nat.shiftLeft_zero, Nat.cast_zero, sub_zero]
  rfl

/-- Packing canonical parts keeps them. -/
theorem ofFloat_pack {negative : Bool} {m : Nat} {q : Int}
    (canonical : (finite negative m q).Canonical) :
    ofFloat (finite negative m q).pack = .finite negative m q := by
  obtain ⟨below, least, most, full⟩ := canonical
  have top : (if negative then pow2 63 else 0) ≤ 2 ^ 63 := by cases negative <;> decide
  have kept : finiteBits negative m q < 2 ^ 64 ∧
      ofBits (finiteBits negative m q) = .finite negative m q := by
    rw [finiteBits, magnitudeBits_eq below full]
    rw [leastExponent] at least full
    by_cases subnormal : m < 2 ^ 52
    · obtain rfl : q = -1074 := full.resolve_left (by omega)
      rw [if_pos subnormal]
      refine ⟨by omega, ?_⟩
      have fields := ofBits_fields negative 0 m (by decide) subnormal
      rwa [Nat.zero_mul, Nat.zero_add] at fields
    · rw [if_neg subnormal]
      refine ⟨by omega, ?_⟩
      have fields := ofBits_fields negative (q + 1075).toNat (m - 2 ^ 52) (by omega) (by omega)
      have mantissa : 2 ^ 52 + (m - 2 ^ 52) = m := by omega
      have exponent : ((q + 1075).toNat : Int) - 1075 = q := by omega
      rw [fields, if_neg (by omega), mantissa, exponent]
  rw [pack, ofFloat_ofBits, Nat.toUInt64, UInt64.toNat_ofNat_of_lt' kept.1, kept.2]

end Parts

end Script.Number
