/-
# Script.Proofs.Operator.Order -- the order of the comparison operators

Two texts are compared by their bytes, everything else as numbers, for which a text of one
character gives its code point.  On texts of one character the two rules agree
(`binary_singletons`), so whatever can be compared pairwise has a place in one linear order: all of
it as texts, or all of it as numbers (`comparable_iff`).  The operators then are those of that order
(`oneOrder_of_key`), where different values may have the same place.
-/
import Script.Proofs.Attempt
import Script.Proofs.Number.Order
import Script.Proofs.Number.Whole
import Script.Proofs.Store.Equality
import Script.Proofs.Text.Order

namespace Script

set_option autoImplicit false

namespace BinaryOp

/-- The operators that compare. -/
inductive Compares : BinaryOp → Prop
  | less : Compares .less
  | lessEqual : Compares .lessEqual
  | greater : Compares .greater
  | greaterEqual : Compares .greaterEqual

/-- What an operator says where `<` and `≤` are given. -/
def holds {K : Type} [LT K] [LE K] [DecidableLT K] [DecidableLE K] (op : BinaryOp) (a b : K) :
    Bool :=
  match op with
  | .less => a < b
  | .lessEqual => a ≤ b
  | .greater => b < a
  | .greaterEqual => b ≤ a
  | _ => false

end BinaryOp

/-- The value is a number or a text of one character. -/
def Value.Coercible (v : Value) : Prop :=
  (∃ x, v = .number x) ∨ ∃ c, v = .string (String.singleton c)

namespace Store

variable {s : Store} {u v w : Value} {op : BinaryOp} {values : Set Value}

/-- The operator says so of the two values. -/
def Affirms (s : Store) (op : BinaryOp) (v w : Value) : Prop :=
  s.binary op v w = .ok (.value (.bool true))

/-- The two values can be compared. -/
def Comparable (s : Store) (v w : Value) : Prop :=
  ∃ r, s.binary .less v w = .ok r

/-- On the values the four operators are those of one order, in which two may be level. -/
structure OneOrder (s : Store) (values : Set Value) : Prop where
  answers : ∀ v w : values, ∀ op : BinaryOp, op.Compares →
    ∃ b, s.binary op v w = .ok (.value (.bool b))
  irreflexive : ∀ v : values, ¬ s.Affirms .less v v
  transitive : ∀ u v w : values, s.Affirms .less u v → s.Affirms .less v w → s.Affirms .less u w
  greater_iff : ∀ v w : values, s.Affirms .greater v w ↔ s.Affirms .less w v
  lessEqual_iff : ∀ v w : values, s.Affirms .lessEqual v w ↔ ¬ s.Affirms .less w v
  greaterEqual_iff : ∀ v w : values, s.Affirms .greaterEqual v w ↔ ¬ s.Affirms .less v w
  level : Equivalence fun v w : values => ¬ s.Affirms .less v w ∧ ¬ s.Affirms .greater v w

/-! ## Numbers for values -/

theorem coerce_singleton (c : Char) :
    s.coerce (.string (String.singleton c)) = .ok (Number.ofNat c.toNat) := by
  simp only [coerce, String.toList_singleton]

theorem coerce_eq_ok_iff {x : Float} :
    s.coerce v = .ok x ↔
      v = .number x ∨ ∃ c, v = .string (String.singleton c) ∧ x = Number.ofNat c.toNat := by
  constructor
  · intro coerced
    cases v with
    | number y =>
        cases coerced
        exact .inl rfl
    | string text =>
        simp only [coerce] at coerced
        split at coerced
        · rename_i c single
          cases coerced
          refine .inr ⟨c, congrArg Value.string (String.toList_inj.1 ?_), rfl⟩
          rw [single, String.toList_singleton]
        · cases coerced
    | _ => exact absurd coerced Attempt.bind_fail_ne_ok
  · rintro (rfl | ⟨c, rfl, rfl⟩)
    · rfl
    · exact coerce_singleton c

theorem exists_coerce_iff : (∃ x, s.coerce v = .ok x) ↔ v.Coercible := by
  simp only [coerce_eq_ok_iff, Value.Coercible, exists_or]
  exact or_congr_right ⟨fun ⟨_, c, same, _⟩ => ⟨c, same⟩, fun ⟨c, same⟩ => ⟨_, c, same, rfl⟩⟩

/-- That a value is no number is a fault, if there is a text to report. -/
theorem coerce_fails (acyclic : s.Acyclic v) (no : ¬ v.Coercible) :
    ∃ cause, s.coerce v = .error (.fault cause) := by
  cases v with
  | number x => exact absurd (.inl ⟨x, rfl⟩) no
  | string text =>
      simp only [coerce]
      split
      · rename_i c single
        refine absurd (.inr ⟨c, congrArg Value.string (String.toList_inj.1 ?_)⟩) no
        rw [single, String.toList_singleton]
      · exact ⟨_, rfl⟩
  | _ =>
      obtain ⟨text, rendered⟩ := acyclic.nests.ends_render
      exact ⟨.notANumber text, by simp only [coerce, rendered]; rfl⟩

/-! ## What the operators say -/

theorem binary_strings (compares : op.Compares) (a b : String) :
    s.binary op (.string a) (.string b) = .ok (.value (.bool (op.holds a b))) := by
  cases compares <;> simp [binary, binaryValue, compare, BinaryOp.holds, ← not_lt] <;> rfl

/-- Two values that are not both texts are compared as numbers. -/
theorem binary_mixed (compares : op.Compares)
    (mixed : ¬ ∃ a b, v = .string a ∧ w = .string b) :
    s.binary op v w = (do
      let x ← s.coerce v
      let y ← s.coerce w
      .ok (.value (.bool (op.holds x y)))) := by
  have numbers (texts : String → String → Bool) (holds : Float → Float → Bool) :
      s.compare texts holds v w = (do
        let x ← s.coerce v
        let y ← s.coerce w
        .ok (.bool (holds x y))) := by
    unfold compare
    split
    · exact absurd ⟨_, _, rfl, rfl⟩ mixed
    · rfl
  cases compares <;> simp only [binary, binaryValue, numbers, bind_assoc] <;> rfl

/-- The code point of a character is a double. -/
theorem extended?_code (c : Char) :
    Number.extended? (Number.ofNat c.toNat) =
      some (((c.toNat : ℚ) : WithTop ℚ) : WithBot (WithTop ℚ)) :=
  Number.extended?_of_value? (Number.value?_ofNat ((Text.code_lt c).trans (by decide)))

/-- What an operator says depends on the order of the operands alone. -/
theorem holds_congr {K K' : Type} [LinearOrder K] [LinearOrder K'] {a b : K} {a' b' : K'}
    (op : BinaryOp) (up : a < b ↔ a' < b') (down : b < a ↔ b' < a') :
    op.holds a b = op.holds a' b' := by
  cases op <;> simp only [BinaryOp.holds, ← not_lt, up, down]

theorem holds_numbers {x y : Float} {a b : WithBot (WithTop ℚ)} (left : Number.extended? x = some a)
    (right : Number.extended? y = some b) : op.holds x y = op.holds a b := by
  cases op <;> simp only [BinaryOp.holds, Number.lt_iff left right, Number.lt_iff right left,
    Number.le_iff left right, Number.le_iff right left]

/-- Texts of one character are ordered as the code points are. -/
theorem binary_singletons (compares : op.Compares) (c d : Char) :
    s.binary op (.string (String.singleton c)) (.string (String.singleton d)) =
      .ok (.value (.bool (op.holds (Number.ofNat c.toNat) (Number.ofNat d.toNat)))) := by
  have codes (c d : Char) : String.singleton c < String.singleton d ↔
      (((c.toNat : ℚ) : WithTop ℚ) : WithBot (WithTop ℚ)) < ((d.toNat : ℚ) : WithTop ℚ) := by
    rw [Text.singleton_lt_singleton_iff, Number.Parts.coe_lt_coe, Nat.cast_lt]
  rw [binary_strings compares, holds_numbers (extended?_code c) (extended?_code d),
    holds_congr op (codes c d) (codes d c)]

/-- Values that are both numbers to the operators are compared as such, by either rule. -/
theorem binary_of_coerce (compares : op.Compares) {x y : Float} (left : s.coerce v = .ok x)
    (right : s.coerce w = .ok y) : s.binary op v w = .ok (.value (.bool (op.holds x y))) := by
  by_cases texts : ∃ a b, v = .string a ∧ w = .string b
  · obtain ⟨a, b, rfl, rfl⟩ := texts
    obtain ⟨⟨⟩⟩ | ⟨c, ⟨⟩, rfl⟩ := coerce_eq_ok_iff.1 left
    obtain ⟨⟨⟩⟩ | ⟨d, ⟨⟩, rfl⟩ := coerce_eq_ok_iff.1 right
    exact binary_singletons compares c d
  · rw [binary_mixed compares texts, left, right]
    rfl

/-- Two values can be compared if both are texts, or both are numbers to the operators. -/
theorem exists_binary_iff (compares : op.Compares) :
    (∃ r, s.binary op v w = .ok r) ↔
      (∃ a b, v = .string a ∧ w = .string b) ∨ v.Coercible ∧ w.Coercible := by
  by_cases texts : ∃ a b, v = .string a ∧ w = .string b
  · refine iff_of_true ?_ (.inl texts)
    obtain ⟨a, b, rfl, rfl⟩ := texts
    exact ⟨_, binary_strings compares a b⟩
  · rw [or_iff_right texts, ← exists_coerce_iff (s := s), ← exists_coerce_iff (s := s),
      binary_mixed compares texts]
    constructor
    · rintro ⟨r, given⟩
      obtain ⟨x, left, given⟩ := Attempt.bind_eq_ok.1 given
      obtain ⟨y, right, -⟩ := Attempt.bind_eq_ok.1 given
      exact ⟨⟨x, left⟩, y, right⟩
    · rintro ⟨⟨x, left⟩, y, right⟩
      rw [left, right]
      exact ⟨_, rfl⟩

/-! ## Values with a place in an order -/

/-- Operators that go by a place in a linear order are those of one order. -/
theorem oneOrder_of_key {K : Type} [LinearOrder K] (key : values → K)
    (keyed : ∀ v w : values, ∀ op : BinaryOp, op.Compares →
      s.binary op v w = .ok (.value (.bool (op.holds (key v) (key w))))) :
    s.OneOrder values := by
  have affirms (v w : values) {op : BinaryOp} (compares : op.Compares) :
      s.Affirms op v w ↔ op.holds (key v) (key w) = true := by
    rw [Affirms, keyed v w op compares]
    simp
  have less (v w : values) : s.Affirms .less v w ↔ key v < key w :=
    (affirms v w .less).trans decide_eq_true_iff
  have greater (v w : values) : s.Affirms .greater v w ↔ key w < key v :=
    (affirms v w .greater).trans decide_eq_true_iff
  have level (v w : values) :
      ¬ s.Affirms .less v w ∧ ¬ s.Affirms .greater v w ↔ key v = key w := by
    rw [less, greater, not_lt, not_lt, and_comm, ← le_antisymm_iff]
  constructor
  case answers => exact fun v w op compares => ⟨_, keyed v w op compares⟩
  case irreflexive =>
    intro v
    rw [less]
    exact lt_irrefl _
  case transitive =>
    intro u v w
    rw [less, less, less]
    exact lt_trans
  case greater_iff =>
    intro v w
    rw [less, greater]
  case lessEqual_iff =>
    intro v w
    rw [less, not_lt]
    exact (affirms v w .lessEqual).trans decide_eq_true_iff
  case greaterEqual_iff =>
    intro v w
    rw [less, not_lt]
    exact (affirms v w .greaterEqual).trans decide_eq_true_iff
  case level =>
    simp only [level]
    exact ⟨fun v => rfl, Eq.symm, Eq.trans⟩

/-- Pairwise comparable values are all numbers to the operators, or all texts. -/
theorem comparable_iff :
    (∀ v ∈ values, ∀ w ∈ values, s.Comparable v w) ↔
      (∀ v ∈ values, v.Coercible) ∨ ∀ v ∈ values, ∃ text, v = .string text := by
  simp only [Comparable, exists_binary_iff .less]
  constructor
  · intro pairs
    by_cases texts : ∀ v ∈ values, ∃ text, v = .string text
    · exact .inr texts
    · left
      push Not at texts
      obtain ⟨w, member, other⟩ := texts
      intro v inside
      rcases pairs v inside w member with ⟨a, b, -, text⟩ | ⟨number, -⟩
      · exact absurd text (other b)
      · exact number
  · rintro (numbers | texts) v inside w member
    · exact .inr ⟨numbers v inside, numbers w member⟩
    · obtain ⟨a, rfl⟩ := texts v inside
      obtain ⟨b, rfl⟩ := texts w member
      exact .inl ⟨a, b, rfl, rfl⟩

/-- A number that is not not-a-number, or a text of one character, has a place among numbers. -/
theorem exists_place (number : v.isNaN = false) (coercible : v.Coercible) :
    ∃ x a, s.coerce v = .ok x ∧ Number.extended? x = some a := by
  rcases coercible with ⟨x, rfl⟩ | ⟨c, rfl⟩
  · obtain ⟨a, place⟩ := Number.exists_extended? number
    exact ⟨x, a, rfl, place⟩
  · exact ⟨_, _, coerce_singleton c, extended?_code c⟩

theorem oneOrder_of_coercible (numbers : ∀ v ∈ values, v.isNaN = false)
    (coercible : ∀ v ∈ values, v.Coercible) : s.OneOrder values := by
  have places (v : values) : ∃ x a, s.coerce v = .ok x ∧ Number.extended? x = some a :=
    exists_place (numbers v v.2) (coercible v v.2)
  choose x a coerced placed using places
  refine oneOrder_of_key a fun v w op compares => ?_
  rw [binary_of_coerce compares (coerced v) (coerced w), holds_numbers (placed v) (placed w)]

theorem oneOrder_of_strings (texts : ∀ v ∈ values, ∃ text, v = .string text) :
    s.OneOrder values := by
  choose text same using fun v : values => texts v v.2
  refine oneOrder_of_key text fun v w op compares => ?_
  rw [same v, same w, binary_strings compares]

/-! ## The four operators -/

/-- Texts are compared by their bytes. -/
theorem binary_bytes (compares : op.Compares) (a b : String) :
    s.binary op (.string a) (.string b) =
      .ok (.value (.bool (op.holds a.toUTF8.data.toList b.toUTF8.data.toList))) := by
  rw [binary_strings compares]
  cases compares <;>
    simp only [BinaryOp.holds, ← not_lt (α := String), ← List.not_lt, Text.lt_iff_toUTF8_lt]

theorem binary_error_iff (compares : op.Compares) :
    (∃ halt, s.binary op v w = .error halt) ↔
      ¬ (∃ a b, v = .string a ∧ w = .string b) ∧ (¬ v.Coercible ∨ ¬ w.Coercible) := by
  rw [← not_and_or, ← not_or, ← exists_binary_iff compares (s := s)]
  cases s.binary op v w <;> simp

/-- Comparing values that have texts ends in a fault, if it gives no result. -/
theorem binary_fault (compares : op.Compares) (left : s.Acyclic v) (right : s.Acyclic w)
    {halt : Halt} (failed : s.binary op v w = .error halt) : ∃ cause, halt = .fault cause := by
  obtain ⟨mixed, -⟩ := (binary_error_iff compares).1 ⟨halt, failed⟩
  rw [binary_mixed compares mixed] at failed
  by_cases first : v.Coercible
  · obtain ⟨x, coerced⟩ := exists_coerce_iff.2 first
    rw [coerced] at failed
    by_cases second : w.Coercible
    · obtain ⟨y, coerced⟩ := exists_coerce_iff.2 second
      rw [coerced] at failed
      cases failed
    · obtain ⟨cause, coerced⟩ := coerce_fails right second
      rw [coerced] at failed
      cases failed
      exact ⟨cause, rfl⟩
  · obtain ⟨cause, coerced⟩ := coerce_fails left first
    rw [coerced] at failed
    cases failed
    exact ⟨cause, rfl⟩

theorem holds_of_isNaN {x y : Float} (nan : x.isNaN = true ∨ y.isNaN = true) :
    op.holds x y = false := by
  obtain ⟨less, lessEqual⟩ := Number.not_ordered_of_isNaN nan
  obtain ⟨greater, greaterEqual⟩ := Number.not_ordered_of_isNaN nan.symm
  cases op <;> simp only [BinaryOp.holds, less, lessEqual, greater, greaterEqual, decide_false]

/-- Whatever is compared with not-a-number, no comparison holds. -/
theorem binary_of_isNaN (compares : op.Compares) (nan : v.isNaN = true)
    (coercible : w.Coercible) :
    s.binary op v w = .ok (.value (.bool false)) ∧
      s.binary op w v = .ok (.value (.bool false)) := by
  obtain ⟨y, coerced⟩ := exists_coerce_iff (s := s).2 coercible
  cases v with
  | number x =>
      have own : s.coerce (.number x) = .ok x := rfl
      rw [binary_of_coerce compares own coerced, binary_of_coerce compares coerced own,
        holds_of_isNaN (.inl nan), holds_of_isNaN (.inr nan)]
      exact ⟨rfl, rfl⟩
  | _ => cases nan

/-- **The comparison operators are those of one order.**  Values can be compared, each with each and
with itself, if all of them are numbers or texts of one character, or all of them are texts; and
without not-a-number among them `<` is then a strict order, in which what is neither less nor
greater is level, and the other three operators say of two values what `<` says.  Texts are
compared by their bytes, and texts of one character as the code points are, by either rule.  A
comparison fails where the operands are not both texts and one of them is neither a number nor a
text of one character: with a fault, unless one of them contains itself.  None holds of
not-a-number. -/
theorem comparisons_are_one_order (s : Store) :
    (∀ values : Set Value,
      ((∀ v ∈ values, ∀ w ∈ values, s.Comparable v w) ↔
        (∀ v ∈ values, v.Coercible) ∨ ∀ v ∈ values, ∃ text, v = .string text) ∧
      ((∀ v ∈ values, v.isNaN = false) → (∀ v ∈ values, ∀ w ∈ values, s.Comparable v w) →
        s.OneOrder values)) ∧
    ∀ op : BinaryOp, op.Compares →
      (∀ a b, s.binary op (.string a) (.string b) =
        .ok (.value (.bool (op.holds a.toUTF8.data.toList b.toUTF8.data.toList)))) ∧
      (∀ c d, s.binary op (.string (String.singleton c)) (.string (String.singleton d)) =
          s.binary op (.number (Number.ofNat c.toNat)) (.number (Number.ofNat d.toNat)) ∧
        s.binary op (.string (String.singleton c)) (.string (String.singleton d)) =
          .ok (.value (.bool (op.holds c.toNat d.toNat)))) ∧
      (∀ v w, (∃ halt, s.binary op v w = .error halt) ↔
        ¬ (∃ a b, v = .string a ∧ w = .string b) ∧ (¬ v.Coercible ∨ ¬ w.Coercible)) ∧
      (∀ v w halt, s.Acyclic v → s.Acyclic w → s.binary op v w = .error halt →
        ∃ cause, halt = .fault cause) ∧
      ∀ v w, v.isNaN = true → w.Coercible →
        s.binary op v w = .ok (.value (.bool false)) ∧
          s.binary op w v = .ok (.value (.bool false)) := by
  refine ⟨fun values => ⟨comparable_iff, fun numbers pairs => ?order⟩,
    fun op compares => ⟨binary_bytes compares, fun c d => ⟨?rules, ?codes⟩,
      fun v w => binary_error_iff compares,
      fun v w halt left right failed => binary_fault compares left right failed,
      fun v w => binary_of_isNaN compares⟩⟩
  case order =>
    rcases comparable_iff.1 pairs with coercible | texts
    · exact oneOrder_of_coercible numbers coercible
    · exact oneOrder_of_strings texts
  case rules =>
    rw [binary_singletons compares, binary_of_coerce compares rfl rfl]
  case codes =>
    rw [binary_strings compares, holds_congr op Text.singleton_lt_singleton_iff
      Text.singleton_lt_singleton_iff]

/-- A letter stands between numbers, and texts of any length among texts; not-a-number nowhere. -/
theorem comparisons_of_letters_and_texts :
    empty.OneOrder {.number 1, .string "a", .number 98} ∧
      empty.OneOrder {.string "", .string "a", .string "ab"} ∧
      empty.binary .lessEqual (.string "a") (.number (0 / 0)) = .ok (.value (.bool false)) := by
  obtain ⟨orders, operators⟩ := comparisons_are_one_order empty
  have letter : Value.Coercible (.string "a") := .inr ⟨'a', rfl⟩
  refine ⟨(orders _).2 ?_ ((orders _).1.2 (.inl ?_)),
    (orders _).2 ?_ ((orders _).1.2 (.inr ?_)), ?_⟩
  · rintro v (rfl | rfl | rfl) <;> decide +kernel
  · rintro v (rfl | rfl | rfl)
    · exact .inl ⟨1, rfl⟩
    · exact letter
    · exact .inl ⟨98, rfl⟩
  · rintro v (rfl | rfl | rfl) <;> rfl
  · rintro v (rfl | rfl | rfl) <;> exact ⟨_, rfl⟩
  · obtain ⟨-, -, -, -, nan⟩ := operators .lessEqual .lessEqual
    exact (nan (.number (0 / 0)) (.string "a") (by decide +kernel) letter).2

end Store

end Script
