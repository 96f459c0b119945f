/-
# Script.Proofs.Access.Results -- where the results of operations come from

What an operator or a read gives is a plain value, neither container nor function, or a
value that an operand holds: only reads hand out what is stored, and only `+` between
lists passes it on.
-/
import Script.Operator
import Script.Proofs.Access.Reading
import Script.Proofs.Store.Nesting

namespace Script

set_option autoImplicit false

/-- The values that are neither containers nor functions. -/
inductive Value.Plain : Value → Prop
  | null : Plain .null
  | bool (b : Bool) : Plain (.bool b)
  | number (x : Float) : Plain (.number x)
  | string (text : String) : Plain (.string text)
  | typeName (tag : TypeTag) : Plain (.typeName tag)

theorem Value.Plain.address? {v : Value} (plain : v.Plain) : v.address? = none := by
  cases plain <;> rfl

namespace Store

variable {s : Store} {target index v w : Value}

theorem indexGet_result (read : s.indexGet target index = .ok v) : v.Plain ∨ s.Held target v := by
  cases target with
  | list a =>
      obtain ⟨x, i, inside, -, -, rfl⟩ := indexGet_list_eq_ok_iff.1 read
      exact .inr (.inl ⟨a, rfl, Array.getElem_mem_toList inside⟩)
  | string text =>
      obtain ⟨x, i, inside, -, -, rfl⟩ := indexGet_string_eq_ok_iff.1 read
      exact .inl (.string _)
  | dict a =>
      obtain ⟨key, -, rfl⟩ := indexGet_dict_eq_ok_iff.1 read
      cases found : (s.entries a).find? key with
      | none => exact .inl .null
      | some value => exact .inr (held_entry found)
  | _ => cases read

theorem fieldGet_result {name : String} (read : s.fieldGet target name = .ok v) :
    s.Held target v := by
  cases target with
  | dict a =>
      simp only [fieldGet] at read
      split at read
      · rename_i value found
        cases read
        exact held_entry found
      · cases read
  | _ => cases read

theorem unary_result {op : UnaryOp} (computed : s.unary op v = .ok w) : w.Plain := by
  cases op with
  | negate =>
      obtain ⟨x, -, given⟩ := Attempt.bind_eq_ok.1 computed
      cases given
      exact .number _
  | not =>
      cases computed
      exact .bool _

theorem arithmetic_result {f : Float → Float → Float} {r : Value}
    (computed : s.arithmetic f v w = .ok r) : r.Plain := by
  obtain ⟨x, -, computed⟩ := Attempt.bind_eq_ok.1 computed
  obtain ⟨y, -, given⟩ := Attempt.bind_eq_ok.1 computed
  cases given
  exact .number _

theorem compare_result {texts : String → String → Bool} {numbers : Float → Float → Bool} {r : Value}
    (computed : s.compare texts numbers v w = .ok r) : r.Plain := by
  unfold compare at computed
  split at computed
  · cases computed
    exact .bool _
  · obtain ⟨x, -, computed⟩ := Attempt.bind_eq_ok.1 computed
    obtain ⟨y, -, given⟩ := Attempt.bind_eq_ok.1 computed
    cases given
    exact .bool _

theorem plus_result {r : Value} (computed : s.plus v w = .ok r) : r.Plain := by
  have joined : ∀ {r}, (do let a ← s.render v; let b ← s.render w; .ok (.string (a ++ b)) :
      Attempt Value) = .ok r → r.Plain := by
    intro r computed
    obtain ⟨a, -, computed⟩ := Attempt.bind_eq_ok.1 computed
    obtain ⟨b, -, given⟩ := Attempt.bind_eq_ok.1 computed
    cases given
    exact .string _
  unfold plus at computed
  split at computed
  · exact joined computed
  · exact joined computed
  · exact arithmetic_result computed

theorem binaryValue_result {op : BinaryOp} {r : Value} (computed : s.binaryValue op v w = .ok r) :
    r.Plain := by
  cases op with
  | or | and =>
      cases computed
      exact .bool _
  | equal | notEqual =>
      obtain ⟨same, -, given⟩ := Attempt.bind_eq_ok.1 computed
      cases given
      exact .bool _
  | less | lessEqual | greater | greaterEqual => exact compare_result computed
  | add => exact plus_result computed
  | subtract | multiply | divide | remainder => exact arithmetic_result computed

/-- An operator gives a plain value, or the items of two lists. -/
theorem binary_result {op : BinaryOp} {product : Product}
    (computed : s.binary op v w = .ok product) :
    (∃ r, product = .value r ∧ r.Plain) ∨
      ∃ a b, v = .list a ∧ w = .list b ∧ product = .items (s.items a ++ s.items b) := by
  unfold binary at computed
  split at computed
  · cases computed
    exact .inr ⟨_, _, rfl, rfl, rfl⟩
  · obtain ⟨r, valued, given⟩ := Attempt.bind_eq_ok.1 computed
    cases given
    exact .inl ⟨r, rfl, binaryValue_result valued⟩

end Store

end Script
