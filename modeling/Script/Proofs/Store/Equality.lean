/-
# Script.Proofs.Store.Equality -- equality as a partial equivalence

How two values come to be equal is said once, by `Matches`: they are one value other than
not-a-number, or equal doubles, or two lists of one length with equal items, or two dictionaries
with the same keys and equal values.  Of acyclic values, those that are equal are those that match
(`equal_eq_true_iff`).  For dictionaries this takes a count: as many entries, and every key of the
one among those of the other, make the keys the same.

That equality is symmetric and transitive passes from what two values hold to the values, as
matching shows, and so to all acyclic values.
-/
import Mathlib
import Script.Operator
import Script.Proofs.Dict
import Script.Proofs.Store.Order

namespace Script

set_option autoImplicit false

/-- The value is the number that differs from itself. -/
def Value.isNaN : Value → Bool
  | .number x => x.isNaN
  | _ => false

/-- Only not-a-number differs from itself. -/
theorem Number.beq_self (x : Float) : (x == x) = !x.isNaN := by
  rw [Float.isNaN_eq_decide_eq_nan, Bool.eq_iff_iff]
  simp

namespace Store

variable {s : Store} {u v w : Value} {a b : Nat}

/-! ## One step inside -/

/-- Comparing two values that acyclic ones hold is comparing them by themselves. -/
theorem Nests.equalWithin_eq_equal (left : s.Nests s.size v) (right : s.Nests s.size w) :
    s.equalWithin (s.size * s.size) v w = s.equal v w := by
  have enough : s.size ≤ s.size * s.size := Nat.le_mul_self s.size
  rw [equal, left.equalWithin_eq right enough, left.equalWithin_eq right (Nat.le_succ_of_le enough)]

/-- Any depth that goes beyond the number of containers suffices. -/
theorem Acyclic.equalWithin_eq_equal {depth : Nat} (left : s.Acyclic v) (right : s.Acyclic w)
    (deep : s.size < depth) : s.equalWithin depth v w = s.equal v w := by
  have enough : s.size + 1 ≤ s.size * s.size + 1 := Nat.succ_le_succ (Nat.le_mul_self s.size)
  exact (left.nests.equalWithin_eq right.nests deep).trans
    (left.nests.equalWithin_eq right.nests enough).symm

/-- Acyclic values can be compared. -/
theorem Acyclic.ends_equal (left : s.Acyclic v) (right : s.Acyclic w) :
    Attempt.Ends (s.equal v w) := by
  rw [← left.equalWithin_eq_equal right (Nat.lt_succ_self s.size)]
  exact left.nests.ends_equalWithin right.nests

theorem equal_list (left : s.Acyclic (.list a)) (right : s.Acyclic (.list b)) :
    s.equal (.list a) (.list b) =
      if a = b then .ok true
      else if (s.items a).size = (s.items b).size then
        ((s.items a).toList.zip (s.items b).toList).allM fun pair => s.equal pair.1 pair.2
      else .ok false := by
  refine if_congr .rfl rfl (if_congr .rfl (Attempt.allM_congr fun pair member => ?_) rfl)
  obtain ⟨first, second⟩ := List.of_mem_zip member
  exact (left.nests.item first).equalWithin_eq_equal (right.nests.item second)

theorem equal_dict (left : s.Acyclic (.dict a)) (right : s.Acyclic (.dict b)) :
    s.equal (.dict a) (.dict b) =
      if a = b then .ok true
      else if (s.entries a).size = (s.entries b).size then
        (s.entries a).toList.allM fun entry =>
          match (s.entries b).find? entry.1 with
          | some value => s.equal value entry.2
          | none => .ok false
      else .ok false := by
  refine if_congr .rfl rfl (if_congr .rfl (Attempt.allM_congr fun entry member => ?_) rfl)
  cases found : (s.entries b).find? entry.1 with
  | none => rfl
  | some value =>
      have other : (entry.1, value) ∈ (s.entries b).toList := Dict.find?_eq_some_iff.1 found
      exact (right.nests.entry other).equalWithin_eq_equal (left.nests.entry member)

/-- Two lists are equal when they are one or as long as each other, with equal items. -/
theorem equal_list_iff (left : s.Acyclic (.list a)) (right : s.Acyclic (.list b)) :
    s.equal (.list a) (.list b) = .ok true ↔
      a = b ∨ (s.items a).size = (s.items b).size ∧
        ∀ (i : Nat) (x y : Value), (s.items a)[i]? = some x → (s.items b)[i]? = some y →
          s.equal x y = .ok true := by
  have pairs : (∀ pair ∈ (s.items a).toList.zip (s.items b).toList,
      s.equal pair.1 pair.2 = .ok true) ↔
        ∀ (i : Nat) (x y : Value), (s.items a)[i]? = some x → (s.items b)[i]? = some y →
          s.equal x y = .ok true := by
    simp only [List.mem_iff_getElem?, List.getElem?_zip_eq_some, Array.getElem?_toList]
    constructor
    · intro all i x y first second
      exact all (x, y) ⟨i, first, second⟩
    · rintro all ⟨x, y⟩ ⟨i, first, second⟩
      exact all i x y first second
  rw [equal_list left right]
  by_cases one : a = b
  · simp [one]
  · by_cases size : (s.items a).size = (s.items b).size
    · simp only [one, size, if_true, if_false, false_or, true_and, Attempt.allM_eq_true_iff, pairs]
    · simp [one, size]

/-- Two dictionaries are equal when they are one or have the same keys, with equal values.  The
values under a key change places. -/
theorem equal_dict_iff_swapped (left : s.Acyclic (.dict a)) (right : s.Acyclic (.dict b)) :
    s.equal (.dict a) (.dict b) = .ok true ↔
      a = b ∨ (∀ key, key ∈ (s.entries a).keys ↔ key ∈ (s.entries b).keys) ∧
        ∀ (key : String) (x y : Value), (s.entries a).find? key = some x →
          (s.entries b).find? key = some y → s.equal y x = .ok true := by
  rw [equal_dict left right]
  by_cases one : a = b
  · simp [one]
  by_cases size : (s.entries a).size = (s.entries b).size
  · simp only [one, size, if_true, if_false, false_or, Attempt.allM_eq_true_iff]
    constructor
    · intro all
      have there : ∀ key x, (s.entries a).find? key = some x →
          ∃ y, (s.entries b).find? key = some y ∧ s.equal y x = .ok true := by
        intro key x found
        have same := all (key, x) (Dict.find?_eq_some_iff.1 found)
        split at same
        · rename_i y other
          exact ⟨y, other, same⟩
        · cases same
      refine ⟨Dict.mem_keys_iff_of_subset size fun key member => ?_, fun key x y found other => ?_⟩
      · obtain ⟨x, found⟩ := Option.isSome_iff_exists.1 (Dict.mem_keys_iff.1 member)
        obtain ⟨y, other, -⟩ := there key x found
        exact Dict.mem_keys_iff.2 (other ▸ rfl)
      · obtain ⟨y', other', same⟩ := there key x found
        obtain rfl := Option.some.inj (other.symm.trans other')
        exact same
    · rintro ⟨keys, values⟩ ⟨key, x⟩ member
      have found : (s.entries a).find? key = some x := Dict.find?_eq_some_iff.2 member
      have known : key ∈ (s.entries b).keys := (keys key).1 (Dict.mem_keys_iff.2 (found ▸ rfl))
      obtain ⟨y, other⟩ := Option.isSome_iff_exists.1 (Dict.mem_keys_iff.1 known)
      rw [other]
      exact values key x y found other
  · have apart : ¬ ∀ key, key ∈ (s.entries a).keys ↔ key ∈ (s.entries b).keys :=
      fun keys => size (Dict.size_eq_of_mem_keys_iff keys)
    simp [one, size, apart]

/-! ## Matching values -/

/-- How two values come to be equal, given which of the values inside are. -/
inductive Matches (s : Store) : Value → Value → Prop
  | same {v : Value} (number : v.isNaN = false) : Matches s v v
  | numbers {x y : Float} (equal : (x == y) = true) : Matches s (.number x) (.number y)
  | lists {a b : Nat} (size : (s.items a).size = (s.items b).size)
      (items : ∀ (i : Nat) (x y : Value), (s.items a)[i]? = some x → (s.items b)[i]? = some y →
        s.equal x y = .ok true) : Matches s (.list a) (.list b)
  | dicts {a b : Nat} (keys : ∀ key, key ∈ (s.entries a).keys ↔ key ∈ (s.entries b).keys)
      (values : ∀ (key : String) (x y : Value), (s.entries a).find? key = some x →
        (s.entries b).find? key = some y → s.equal y x = .ok true) : Matches s (.dict a) (.dict b)

/-- A value is equal to itself at any depth, unless it is not-a-number. -/
theorem equalWithin_self (s : Store) (depth : Nat) (v : Value) :
    s.equalWithin depth v v = .ok (!v.isNaN) := by
  cases v with
  | number x =>
      rw [equalWithin, Number.beq_self]
      rfl
  | list a | dict a => unfold equalWithin; exact if_pos rfl
  | _ => simp [equalWithin, Value.isNaN]

/-- Whatever it holds, a value equals itself, unless it is not-a-number. -/
theorem equal_self (s : Store) (number : v.isNaN = false) : s.equal v v = .ok true := by
  rw [equal, equalWithin_self, number]
  rfl

/-- Acyclic values are equal when they match. -/
theorem equal_eq_true_iff (left : s.Acyclic v) (right : s.Acyclic w) :
    s.equal v w = .ok true ↔ s.Matches v w := by
  constructor
  · intro equal
    cases v <;> cases w
    case list.list a b =>
      rcases (equal_list_iff left right).1 equal with rfl | ⟨size, items⟩
      · exact .same rfl
      · exact .lists size items
    case dict.dict a b =>
      rcases (equal_dict_iff_swapped left right).1 equal with rfl | ⟨keys, values⟩
      · exact .same rfl
      · exact .dicts keys values
    case number.number x y => exact .numbers (Except.ok.inj equal)
    case null.null => exact .same rfl
    case bool.bool | string.string | function.function | typeName.typeName =>
      exact eq_of_beq (Except.ok.inj equal) ▸ .same rfl
    all_goals cases equal
  · rintro (number | equal | ⟨size, items⟩ | ⟨keys, values⟩)
    · exact equal_self s number
    · exact congrArg Except.ok equal
    · exact (equal_list_iff left right).2 (.inr ⟨size, items⟩)
    · exact (equal_dict_iff_swapped left right).2 (.inr ⟨keys, values⟩)

/-! ## A partial equivalence -/

/-- Values match the other way round when those inside are equal either way or neither. -/
theorem Matches.symm
    (inside : ∀ x y, s.Held v x → s.Held w y → (s.equal x y = .ok true ↔ s.equal y x = .ok true))
    (matched : s.Matches v w) : s.Matches w v := by
  cases matched with
  | same number => exact .same number
  | numbers equal => exact .numbers (BEq.comm.trans equal)
  | lists size items =>
      refine .lists size.symm fun i y x second first => ?_
      exact (inside x y (held_item first) (held_item second)).1 (items i x y first second)
  | dicts keys values =>
      refine .dicts (fun key => (keys key).symm) fun key y x second first => ?_
      exact (inside x y (held_entry first) (held_entry second)).2 (values key x y first second)

theorem equal_eq_true_comm (left : s.Acyclic v) (right : s.Acyclic w) :
    s.equal v w = .ok true ↔ s.equal w v = .ok true := by
  refine left.induction (P := fun v => ∀ w, s.Acyclic w →
    (s.equal v w = .ok true ↔ s.equal w v = .ok true)) ?_ w right
  intro v left ih w right
  have inside : ∀ x y, s.Held v x → s.Held w y →
      (s.equal x y = .ok true ↔ s.equal y x = .ok true) :=
    fun x y held held' => ih x held y (right.of_held held')
  rw [equal_eq_true_iff left right, equal_eq_true_iff right left]
  exact ⟨.symm inside, .symm fun y x held' held => (inside x y held held').symm⟩

/-- Equality is symmetric. -/
theorem equal_comm (left : s.Acyclic v) (right : s.Acyclic w) : s.equal v w = s.equal w v := by
  have turned := equal_eq_true_comm left right
  obtain ⟨same, forth⟩ := left.ends_equal right
  obtain ⟨same', back⟩ := right.ends_equal left
  rw [forth, back, Except.ok.injEq, Except.ok.injEq] at turned
  rw [forth, back, Bool.eq_iff_iff.2 turned]

/-- Two dictionaries are equal when they are one or have the same keys, with equal values. -/
theorem equal_dict_iff (left : s.Acyclic (.dict a)) (right : s.Acyclic (.dict b)) :
    s.equal (.dict a) (.dict b) = .ok true ↔
      a = b ∨ (∀ key, key ∈ (s.entries a).keys ↔ key ∈ (s.entries b).keys) ∧
        ∀ (key : String) (x y : Value), (s.entries a).find? key = some x →
          (s.entries b).find? key = some y → s.equal x y = .ok true := by
  rw [equal_dict_iff_swapped left right]
  refine or_congr .rfl (and_congr .rfl (forall₅_congr fun key x y first second => ?_))
  rw [equal_comm (right.of_held (held_entry second)) (left.of_held (held_entry first))]

/-- Matching passes on when equality of what is inside does, either way round. -/
theorem Matches.trans
    (inside : ∀ x y z, s.Held u x → s.Held v y → s.Held w z →
      s.equal x y = .ok true → s.equal y z = .ok true → s.equal x z = .ok true)
    (turned : ∀ x y z, s.Held u x → s.Held v y → s.Held w z →
      s.equal z y = .ok true → s.equal y x = .ok true → s.equal z x = .ok true)
    (first : s.Matches u v) (second : s.Matches v w) : s.Matches u w := by
  cases first with
  | same number => exact second
  | numbers equal =>
      cases second with
      | same number => exact .numbers equal
      | numbers equal' => exact .numbers (BEq.trans equal equal')
  | @lists a b size items =>
      cases second with
      | same number => exact .lists size items
      | lists size' items' =>
          refine .lists (size.trans size') fun i x z left right => ?_
          obtain ⟨bound, -⟩ := Array.getElem?_eq_some_iff.1 left
          have middle := Array.getElem?_eq_getElem (size ▸ bound)
          exact inside x _ z (held_item left) (held_item middle) (held_item right)
            (items i x _ left middle) (items' i _ z middle right)
  | @dicts a b keys values =>
      cases second with
      | same number => exact .dicts keys values
      | dicts keys' values' =>
          refine .dicts (fun key => (keys key).trans (keys' key)) fun key x z left right => ?_
          have known : key ∈ (s.entries b).keys := (keys key).1 (Dict.mem_keys_iff.2 (left ▸ rfl))
          obtain ⟨y, middle⟩ := Option.isSome_iff_exists.1 (Dict.mem_keys_iff.1 known)
          exact turned x y z (held_entry left) (held_entry middle) (held_entry right)
            (values' key y z middle right) (values key x y left middle)

/-- Equality is transitive. -/
theorem equal_trans (first : s.Acyclic u) (second : s.Acyclic v) (third : s.Acyclic w)
    (same : s.equal u v = .ok true) (same' : s.equal v w = .ok true) :
    s.equal u w = .ok true := by
  refine first.induction (P := fun u => ∀ v w, s.Acyclic v → s.Acyclic w →
    s.equal u v = .ok true → s.equal v w = .ok true → s.equal u w = .ok true)
    ?_ v w second third same same'
  intro u first ih v w second third same same'
  rw [equal_eq_true_iff first second] at same
  rw [equal_eq_true_iff second third] at same'
  refine (equal_eq_true_iff first third).2 (same.trans ?_ ?_ same')
  · intro x y z left middle right
    exact ih x left y z (second.of_held middle) (third.of_held right)
  · intro x y z left middle right after before
    have first' := first.of_held left
    have second' := second.of_held middle
    have third' := third.of_held right
    rw [equal_comm third' second'] at after
    rw [equal_comm second' first'] at before
    rw [equal_comm third' first']
    exact ih x left y z second' third' before after

/-- Values of different kinds differ. -/
theorem equal_of_tag?_ne (s : Store) (apart : v.tag? ≠ w.tag?) : s.equal v w = .ok false := by
  cases v <;> cases w <;> first
    | rfl
    | exact absurd rfl apart

/-- What `==` and `!=` give of two values that can be compared. -/
theorem binary_of_equal {same : Bool} (compared : s.equal v w = .ok same) :
    s.binary .equal v w = .ok (.value (.bool same)) ∧
      s.binary .notEqual v w = .ok (.value (.bool !same)) := by
  simp only [binary, binaryValue, compared]
  exact ⟨rfl, rfl⟩

/-- **Equality is a partial equivalence.**  On acyclic values `==` gives an answer and `!=` the
opposite one.  The answer is the same both ways round, passes from two values on to a third, and is
yes of a value and itself unless that is not-a-number.  Lists are equal when they are one or have as
many items, equal one by one; dictionaries when they are one or have the same keys with equal
values, in whichever order; and values of different kinds never. -/
theorem equality_is_partial_equivalence (s : Store) (u v w : Value) (first : s.Acyclic u)
    (second : s.Acyclic v) (third : s.Acyclic w) :
    (∃ same, s.equal v w = .ok same ∧ s.binary .equal v w = .ok (.value (.bool same)) ∧
        s.binary .notEqual v w = .ok (.value (.bool !same))) ∧
      s.equal v w = s.equal w v ∧
      (s.equal u v = .ok true → s.equal v w = .ok true → s.equal u w = .ok true) ∧
      s.equal v v = .ok (!v.isNaN) ∧
      (∀ a b, v = .list a → w = .list b → (s.equal v w = .ok true ↔
        a = b ∨ (s.items a).size = (s.items b).size ∧
          ∀ (i : Nat) (x y : Value), (s.items a)[i]? = some x → (s.items b)[i]? = some y →
            s.equal x y = .ok true)) ∧
      (∀ a b, v = .dict a → w = .dict b → (s.equal v w = .ok true ↔
        a = b ∨ (∀ key, key ∈ (s.entries a).keys ↔ key ∈ (s.entries b).keys) ∧
          ∀ (key : String) (x y : Value), (s.entries a).find? key = some x →
            (s.entries b).find? key = some y → s.equal x y = .ok true)) ∧
      (v.tag? ≠ w.tag? → s.equal v w = .ok false) := by
  obtain ⟨same, compared⟩ := second.ends_equal third
  refine ⟨⟨same, compared, binary_of_equal compared⟩, equal_comm second third,
    equal_trans first second third, equalWithin_self s _ v, ?_, ?_, equal_of_tag?_ne s⟩
  · rintro a b rfl rfl
    exact equal_list_iff second third
  · rintro a b rfl rfl
    exact equal_dict_iff second third

/-- A list with not-a-number in it, and two dictionaries that share it, with their keys in either
order. -/
def sharedList : Store where
  cells := #[.list #[.number (0 / 0)], .dict (.ofList [("a", .list 0), ("b", .number 1)]),
    .dict (.ofList [("b", .number 1), ("a", .list 0)])]

theorem ordered_sharedList : sharedList.Ordered := by
  refine ordered_of_below fun a there v member => ?_
  have below : ∀ pairs : List (String × Value), v ∈ (Cell.dict (.ofList pairs)).values →
      (∀ pair ∈ pairs, pair.2.Below a) → v.Below a := by
    intro pairs member below
    obtain ⟨entry, listed, rfl⟩ := List.mem_map.1 member
    exact below entry (Dict.mem_of_mem_ofList listed)
  rcases a with _ | _ | _ | a
  · cases List.mem_singleton.1 member
    exact nofun
  · exact below _ member (by unfold Value.Below; decide)
  · exact below _ member (by unfold Value.Below; decide)
  · exact absurd there (by simp [sharedList])

theorem equal_in_either_order :
    sharedList.Acyclic (.dict 1) ∧ sharedList.Acyclic (.dict 2) ∧
      sharedList.binary .equal (.dict 1) (.dict 2) = .ok (.value (.bool true)) ∧
      sharedList.binary .notEqual (.dict 1) (.dict 2) = .ok (.value (.bool false)) := by
  have acyclic (v : Value) : sharedList.Acyclic v := fun a _ => ordered_sharedList.acyclic a
  obtain ⟨⟨same, compared, eq, ne⟩, -, -, -, -, dicts, -⟩ :=
    equality_is_partial_equivalence sharedList (.list 0) (.dict 1) (.dict 2) (acyclic _) (acyclic _)
      (acyclic _)
  have found (key : String) : (sharedList.entries 1).find? key =
      if key = "b" then some (.number 1) else if key = "a" then some (.list 0) else none := by
    change ((Dict.empty.insert "a" (Value.list 0)).insert "b" (.number 1)).find? key = _
    rw [Dict.find?_insert, Dict.find?_insert, Dict.find?_empty]
  have found' (key : String) : (sharedList.entries 2).find? key =
      if key = "a" then some (.list 0) else if key = "b" then some (.number 1) else none := by
    change ((Dict.empty.insert "b" (Value.number 1)).insert "a" (.list 0)).find? key = _
    rw [Dict.find?_insert, Dict.find?_insert, Dict.find?_empty]
  have swapped (key : String) :
      (sharedList.entries 1).find? key = (sharedList.entries 2).find? key := by
    rw [found, found']
    by_cases isA : key = "a" <;> simp [isA]
  have given : sharedList.equal (.dict 1) (.dict 2) = .ok true := by
    refine (dicts 1 2 rfl rfl).2 (.inr ⟨fun key => ?_, fun key x y left right => ?_⟩)
    · rw [Dict.mem_keys_iff, Dict.mem_keys_iff, swapped]
    · obtain rfl := Option.some.inj (left.symm.trans ((swapped key).trans right))
      have number : x.isNaN = false := by
        rw [found] at left
        split at left
        · exact Option.some.inj left ▸ (by decide)
        · split at left
          · exact Option.some.inj left ▸ rfl
          · cases left
      exact equal_self sharedList number
  cases compared.symm.trans given
  exact ⟨acyclic _, acyclic _, eq, ne⟩

end Store

end Script
