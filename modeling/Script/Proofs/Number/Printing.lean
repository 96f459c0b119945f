/-
# Script.Proofs.Number.Printing -- a printed number reads back

The text of a number without its sign is a numeral, and the number that it stands for has the same
mantissa and exponent (`isNumeral_writeMagnitude`).  A decimal written in full keeps its value: its
digits are followed by zeros, parted by the point, or preceded by zeros behind it
(`positional_written`).  The sign is written in front, and the negative of a double differs from it in
the sign alone, zero or not (`neg_pack`).
-/
import Mathlib
import Script.Number.Layout
import Script.Number.Reading
import Script.Proofs.Number.Shortest
import Script.Proofs.Tape.Separated

namespace Script.Number

set_option autoImplicit false

/-! ## Digits and the point -/

theorem ofDigits_eq_ofDigitChars (cs : List Char) : ofDigits cs = Nat.ofDigitChars 10 cs 0 :=
  rfl

theorem ofDigits_toDigits (n : Nat) : ofDigits (Nat.toDigits 10 n) = n := by
  rw [ofDigits_eq_ofDigitChars, Nat.ofDigitChars_ten_toDigits]

/-- Zeros behind a number are powers of ten. -/
theorem ofDigits_append_zeros (cs : List Char) (n : Nat) :
    ofDigits (cs ++ List.replicate n '0') = 10 ^ n * ofDigits cs := by
  rw [ofDigits_eq_ofDigitChars, Nat.ofDigitChars_append, Nat.ofDigitChars_replicate_zero]
  rfl

/-- Zeros in front of a number do not count. -/
theorem ofDigits_zeros_append (n : Nat) (cs : List Char) :
    ofDigits (List.replicate n '0' ++ cs) = ofDigits cs := by
  rw [ofDigits_eq_ofDigitChars, Nat.ofDigitChars_append, Nat.ofDigitChars_replicate_zero]
  rfl

/-- The text has these digits before and behind its point, which is absent when nothing is behind
it. -/
structure Written (cs whole fraction : List Char) : Prop where
  shape : cs = whole ++ '.' :: fraction ∨ cs = whole ∧ fraction = []
  begins : whole ≠ []
  digits : ∀ c ∈ whole ++ fraction, c.isDigit = true

namespace Written

variable {cs whole fraction : List Char}

theorem splitPoint_eq (written : Written cs whole fraction) :
    splitPoint cs = (whole, fraction) := by
  have other : ∀ c ∈ whole, decide (c ≠ '.') = true := by
    intro c member
    rw [decide_eq_true_eq]
    rintro rfl
    exact absurd (written.digits '.' (List.mem_append_left fraction member)) (by decide)
  rcases written.shape with rfl | ⟨rfl, rfl⟩
  · simp only [splitPoint, List.takeWhile_append_of_pos other, List.dropWhile_append_of_pos other]
    simp
  · have none : cs.dropWhile (· ≠ '.') = [] := List.dropWhile_eq_nil_iff.2 other
    have all : cs.takeWhile (· ≠ '.') = cs := List.takeWhile_eq_self_iff.2 other
    rw [splitPoint, none, all, List.drop_nil]

/-- The double that such a text stands for. -/
theorem ofDecimal?_eq (written : Written cs whole fraction) :
    ofDecimal? cs =
      some (Parts.nearest false (ofDigits (whole ++ fraction)) (10 ^ fraction.length)).pack := by
  have nonempty : (whole ++ fraction).isEmpty = false := by
    simp [written.begins]
  have all : (whole ++ fraction).all Char.isDigit = true := List.all_eq_true.2 written.digits
  simp only [ofDecimal?, written.splitPoint_eq, nonempty, all, Bool.not_true, Bool.or_self,
    Bool.false_eq_true, if_false, pow10, Nat.pow_eq]

/-- Such a text is a numeral. -/
theorem isNumeral (written : Written cs whole fraction) {value : Float}
    (read : ofDecimal? cs = some value) : Tape.IsNumeral (String.ofList cs) value := by
  obtain ⟨c, rest, rfl⟩ := List.exists_cons_of_ne_nil written.begins
  have digit : c.isDigit = true := written.digits c (by simp)
  have parts : ∀ d ∈ cs.tail, Tape.isNumberPart d = true := by
    intro d member
    rw [Tape.isNumberPart, Bool.or_eq_true, decide_eq_true_eq]
    have digits := written.digits d
    rcases written.shape with rfl | ⟨rfl, rfl⟩
    · simp only [List.cons_append, List.tail_cons, List.mem_append, List.mem_cons] at member digits
      tauto
    · exact .inl (digits (by simpa using .inr member))
  rcases written.shape with rfl | ⟨rfl, rfl⟩
  · exact ⟨c, rest ++ '.' :: fraction, by simp, digit, parts, read⟩
  · exact ⟨c, rest, by simp, digit, parts, read⟩

end Written

/-- A decimal written in full keeps its value. -/
theorem positional_written {digits : List Char} (e : Int) (begins : digits ≠ [])
    (plain : ∀ c ∈ digits, c.isDigit = true) :
    ∃ whole fraction, Written (positional .canonical digits e) whole fraction ∧
      (ofDigits (whole ++ fraction) : ℚ) / (10 ^ fraction.length : ℕ) =
        ofDigits digits * 10 ^ e := by
  have zero : ∀ n, ∀ c ∈ List.replicate n '0', c.isDigit = true := by
    intro n c member
    rw [List.eq_of_mem_replicate member]
    decide
  have power := Parts.natCast_zpow 10 e
  rw [positional]
  split
  case isTrue up =>
    have down : (-e).toNat = 0 := by omega
    have none : Layout.canonical.whole.toList = [] := rfl
    refine ⟨digits ++ List.replicate e.toNat '0', [], ⟨.inr ⟨?_, rfl⟩, by simp [begins], ?_⟩, ?_⟩
    · rw [none, List.append_nil]
    · rw [List.append_nil]
      exact List.forall_mem_append.2 ⟨plain, zero e.toNat⟩
    · rw [down, pow_zero, Nat.cast_one, div_one] at power
      rw [List.append_nil, ofDigits_append_zeros, List.length_nil, pow_zero, Nat.cast_one, div_one,
        Nat.cast_mul, ← power, Nat.cast_ofNat, mul_comm]
  case isFalse down =>
    have up : e.toNat = 0 := by omega
    rw [up, pow_zero, Nat.cast_one, Nat.cast_ofNat] at power
    -- with as many digits behind the point as there are places, the value is that of all digits
    have value {whole fraction : List Char} (same : ofDigits (whole ++ fraction) = ofDigits digits)
        (places : fraction.length = (-e).toNat) :
        (ofDigits (whole ++ fraction) : ℚ) / (10 ^ fraction.length : ℕ) =
          ofDigits digits * 10 ^ e := by
      rw [same, places, power, mul_one_div]
    simp only
    split
    case isTrue inside =>
      have parts : digits.take (digits.length - (-e).toNat) ++
          digits.drop (digits.length - (-e).toNat) = digits := List.take_append_drop _ digits
      refine ⟨digits.take (digits.length - (-e).toNat), digits.drop (digits.length - (-e).toNat),
        ⟨.inl rfl, ?_, ?_⟩, value (by rw [parts]) (by rw [List.length_drop]; omega)⟩
      · rw [← List.length_pos_iff, List.length_take]
        omega
      · rwa [parts]
    case isFalse outside =>
      refine ⟨['0'], List.replicate ((-e).toNat - digits.length) '0' ++ digits,
        ⟨.inl (by simp), by simp, ?_⟩, value ?_ ?_⟩
      · exact List.forall_mem_append.2
          ⟨zero 1, List.forall_mem_append.2 ⟨zero _, plain⟩⟩
      · rw [← List.append_assoc]
        exact ofDigits_zeros_append ((-e).toNat - digits.length + 1) digits
      · rw [List.length_append, List.length_replicate]
        omega

/-! ## The text of a double -/

/-- The text of a double without its sign stands for the double with its mantissa and exponent. -/
theorem isNumeral_writeMagnitude {m : Nat} {q : Int}
    (canonical : (Parts.finite false m q).Canonical) :
    Tape.IsNumeral (String.ofList (writeMagnitude .canonical m q))
      (Parts.finite false m q).pack := by
  rcases Nat.eq_zero_or_pos m with rfl | positive
  · obtain ⟨-, -, -, full⟩ := canonical
    have least : q = leastExponent := full.resolve_left (by decide)
    have zero : Written ['0'] ['0'] [] := ⟨.inr ⟨rfl, rfl⟩, by simp, by simp⟩
    rw [least]
    exact zero.isNumeral zero.ofDecimal?_eq
  · have digits : ∀ c ∈ Nat.toDigits 10 (shortest m q).digits, c.isDigit = true :=
      fun c => Nat.isDigit_of_mem_toDigits (by decide) le_rfl
    obtain ⟨whole, fraction, written, value⟩ :=
      positional_written (shortest m q).exponent Nat.toDigits_ne_nil digits
    have inside := shortest_contains q positive canonical.1
    rw [ofDigits_toDigits] at value
    rw [Decimal.value, ← value] at inside
    have rounded := Interval.nearest_of_contains canonical positive (Nat.pow_pos (by decide)) inside
    have text : writeMagnitude .canonical m q =
        positional .canonical (Nat.toDigits 10 (shortest m q).digits) (shortest m q).exponent := by
      rw [writeMagnitude, if_neg positive.ne']
      rfl
    rw [text, ← rounded]
    exact written.isNumeral written.ofDecimal?_eq

namespace Parts

open Float.Model (UnpackedFloat)

theorem ofUnpacked_neg {u : UnpackedFloat} {negative : Bool} {m : Nat} {q : Int}
    (parts : ofUnpacked u = .finite negative m q) :
    ofUnpacked u.neg = .finite (!negative) m q := by
  cases u with
  | notANumber => cases parts
  | infinity sign => cases parts
  | zero sign =>
      cases parts
      cases sign <;> rfl
  | finite sign mantissa exponent positive =>
      cases parts
      cases sign <;> rfl

/-- The negative of a double has the other sign, and is otherwise the same. -/
theorem neg_pack {negative : Bool} {m : Nat} {q : Int}
    (canonical : (finite negative m q).Canonical) :
    -(finite negative m q).pack = (finite (!negative) m q).pack := by
  have opposite : (finite (!negative) m q).pack.toModel.unpack =
      (finite negative m q).pack.toModel.unpack.neg := by
    have other : (finite (!negative) m q).Canonical := canonical
    have parts := ofFloat_pack canonical
    rw [ofFloat_eq_ofUnpacked] at parts
    apply ofUnpacked_inj
    rw [← ofFloat_eq_ofUnpacked, ofFloat_pack other, ofUnpacked_neg parts]
  have model : (-(finite negative m q).pack).toModel =
      Float.Model.pack (finite (!negative) m q).pack.toModel.unpack := by
    rw [opposite]
    rfl
  exact (congrArg Float.ofModel model).trans (Float.ofBits_toBits _)

/-- A finite double has a sign, a mantissa and an exponent. -/
theorem exists_finite {x : Float} (isFinite : x.isFinite = true) :
    ∃ negative m q, ofFloat x = .finite negative m q := by
  have unpacked : x.toModel.unpack.isFinite = true := isFinite
  rw [ofFloat_eq_ofUnpacked]
  cases parts : x.toModel.unpack with
  | notANumber => rw [parts] at unpacked; cases unpacked
  | infinity sign => rw [parts] at unpacked; cases unpacked
  | zero sign => exact ⟨_, _, _, rfl⟩
  | finite sign mantissa exponent positive => exact ⟨_, _, _, rfl⟩

end Parts

/-- The text of a finite double is a numeral, behind a sign when the double is negative; it stands
for the double. -/
theorem text_reads_back {x : Float} (isFinite : x.isFinite = true) :
    ∃ (negative : Bool) (digits : String) (value : Float), Tape.IsNumeral digits value ∧
      text x = (if negative then "-" ++ digits else digits) ∧
      x = if negative then -value else value := by
  obtain ⟨negative, m, q, parts⟩ := Parts.exists_finite isFinite
  have canonical := Parts.canonical_ofFloat x
  rw [parts] at canonical
  have positive : (Parts.finite false m q).Canonical := canonical
  refine ⟨negative, _, _, isNumeral_writeMagnitude positive, ?_, ?_⟩
  · rw [text, write, parts]
    cases negative with
    | false => rfl
    | true => exact @String.ofList_append ['-'] (writeMagnitude .canonical m q)
  · apply Parts.eq_of_ofFloat
    rw [parts]
    cases negative with
    | false => exact (Parts.ofFloat_pack positive).symm
    | true =>
        rw [if_pos rfl, Parts.neg_pack positive]
        exact (Parts.ofFloat_pack canonical).symm

end Script.Number
