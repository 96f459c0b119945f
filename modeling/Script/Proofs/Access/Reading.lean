/-
# Script.Proofs.Access.Reading -- which reads by index succeed

A list or a string is read at the integers from zero to below its length and nowhere
else, whichever double stands for the integer; a dictionary at every string.  What is
read stands in the slot, so no read looks outside.
-/
import Script.Access
import Script.Proofs.Attempt
import Script.Proofs.Number.Value

namespace Script

set_option autoImplicit false

/-- An index stands for the slot that its value is, if there is such a slot. -/
theorem slot_eq_ok_iff {text : Value → Attempt String} {index : Value} {length i : Nat} :
    slot text index length = .ok i ↔
      ∃ x, index = .number x ∧ Number.value? x = some (i : ℚ) ∧ i < length := by
  cases index with
  | number x =>
      have valued : Number.value? x = some (i : ℚ) ↔ Number.whole? x = some (i : ℤ) := by
        rw [Number.whole?_eq_some_iff, Int.cast_natCast]
      simp only [slot, Value.number.injEq, exists_eq_left', valued]
      cases Number.whole? x with
      | none => simp [Attempt.fail]
      | some j =>
          simp only [Option.some.injEq]
          by_cases inside : 0 ≤ j ∧ j < length
          · rw [if_pos inside, Except.ok.injEq]
            omega
          · rw [if_neg inside]
            refine ⟨nofun, ?_⟩
            rintro ⟨rfl, below⟩
            exact absurd ⟨by omega, by omega⟩ inside
  | _ => exact ⟨fun given => absurd given Attempt.bind_fail_ne_ok, by simp⟩

namespace Store

variable {s : Store} {a : Nat} {index v : Value}

theorem key_eq_ok_iff {k : String} : s.key index = .ok k ↔ index = .string k := by
  cases index with
  | string text => simp [key]
  | _ => exact ⟨fun given => absurd given Attempt.bind_fail_ne_ok, by simp⟩

/-- A list is read at the integers below its length. -/
theorem indexGet_list_eq_ok_iff :
    s.indexGet (.list a) index = .ok v ↔
      ∃ x i, ∃ inside : i < (s.items a).size,
        index = .number x ∧ Number.value? x = some (i : ℚ) ∧ v = (s.items a)[i] := by
  simp only [indexGet, Attempt.bind_eq_ok, slot_eq_ok_iff, Except.ok.injEq]
  constructor
  · rintro ⟨i, ⟨x, rfl, whole, inside⟩, rfl⟩
    exact ⟨x, i, inside, rfl, whole, by simp [inside]⟩
  · rintro ⟨x, i, inside, rfl, whole, rfl⟩
    exact ⟨i, ⟨x, rfl, whole, inside⟩, by simp [inside]⟩

/-- A string is read at the integers below its length, character by character. -/
theorem indexGet_string_eq_ok_iff {text : String} :
    s.indexGet (.string text) index = .ok v ↔
      ∃ x i, ∃ inside : i < text.toList.length,
        index = .number x ∧ Number.value? x = some (i : ℚ) ∧
          v = .string (String.singleton text.toList[i]) := by
  simp only [indexGet, Attempt.bind_eq_ok, slot_eq_ok_iff, Except.ok.injEq]
  constructor
  · rintro ⟨i, ⟨x, rfl, whole, inside⟩, rfl⟩
    exact ⟨x, i, inside, rfl, whole, by rw [List.getElem?_eq_getElem inside]; rfl⟩
  · rintro ⟨x, i, inside, rfl, whole, rfl⟩
    exact ⟨i, ⟨x, rfl, whole, inside⟩, by rw [List.getElem?_eq_getElem inside]; rfl⟩

/-- A dictionary is read at every string, where it has nothing as null. -/
theorem indexGet_dict_eq_ok_iff :
    s.indexGet (.dict a) index = .ok v ↔
      ∃ k, index = .string k ∧ v = ((s.entries a).find? k).getD .null := by
  simp only [indexGet, Attempt.bind_eq_ok, key_eq_ok_iff, Except.ok.injEq, eq_comm (a := v)]

end Store

end Script
