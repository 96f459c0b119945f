/-
# Script.Proofs.Access.Writing -- what a write by index changes

A write changes one slot of one list, or the value under one key of one dictionary
(`ItemWritten`, `EntryWritten`), and a read sees it exactly where the write went: by the
same index through every value with the same address.  All other reads are as before
(`SameElsewhere`).  A list is written where it could be read, and where it cannot be
written the read fails with the same fault.

Two containers may hold one another or themselves, and the value written may be any of
them: nothing here looks inside a value, except to render an index that is no number.
-/
import Script.Eval.Evaluate
import Script.Proofs.Access.Reading
import Script.Proofs.Eval.Ending
import Script.Proofs.Store.Render

namespace Script

set_option autoImplicit false

namespace Store

/-- The value is no container, or one that the store has. -/
def Holds (s : Store) : Value → Prop
  | .list a => ∃ items, s.cells[a]? = some (.list items)
  | .dict a => ∃ entries, s.cells[a]? = some (.dict entries)
  | _ => True

/-- The list at `a` has `value` in slot `i`, which it had before, and nothing else differs. -/
structure ItemWritten (s s' : Store) (a i : Nat) (value : Value) : Prop where
  inside : i < (s.items a).size
  written : s'.cells[a]? = some (.list ((s.items a).set i value))
  others : ∀ b, b ≠ a → s'.cells[b]? = s.cells[b]?

/-- The dictionary at `a` has `value` under `key`, where the key was or, if it is new, at the end,
and nothing else differs. -/
structure EntryWritten (s s' : Store) (a : Nat) (key : String) (value : Value) : Prop where
  written : ∃ entries, s'.cells[a]? = some (.dict entries) ∧
    ((∃ slot old, (s.entries a).toList[slot]? = some (key, old) ∧
        entries.toList = (s.entries a).toList.set slot (key, value)) ∨
      (∀ old, (key, old) ∉ (s.entries a).toList) ∧
        entries.toList = (s.entries a).toList ++ [(key, value)])
  others : ∀ b, b ≠ a → s'.cells[b]? = s.cells[b]?

/-- Reads that do not go to the place written are what they were. -/
structure SameElsewhere (s s' : Store) (written : Place) : Prop where
  reads : ∀ target index v, s.place target index ≠ .ok written →
    (s'.indexGet target index = .ok v ↔ s.indexGet target index = .ok v)
  /-- Also reads that fail, unless it is the text of a container that they fail with. -/
  plain : ∀ target index, s.place target index ≠ .ok written → index.address? = none →
    s'.indexGet target index = s.indexGet target index
  fields : ∀ target name, s.place target (.string name) ≠ .ok written →
    s'.fieldGet target name = s.fieldGet target name

variable {s s' : Store} {target index value : Value} {a i : Nat} {key : String}

/-! ## The place of a write -/

theorem place_eq_ok_iff {place : Place} :
    s.place target index = .ok place ↔
      (∃ a x, ∃ i : Nat, target = .list a ∧ index = .number x ∧ Number.value? x = some (i : ℚ) ∧
        i < (s.items a).size ∧ place = .item a i) ∨
      ∃ a k, target = .dict a ∧ index = .string k ∧ place = .entry a k := by
  cases target with
  | list a =>
      simp only [Store.place, Attempt.bind_eq_ok, slot_eq_ok_iff, Except.ok.injEq]
      constructor
      · rintro ⟨i, ⟨x, rfl, whole, inside⟩, rfl⟩
        exact .inl ⟨a, x, i, rfl, rfl, whole, inside, rfl⟩
      · rintro (⟨a, x, i, ⟨⟩, rfl, whole, inside, rfl⟩ | ⟨a, k, ⟨⟩, -⟩)
        exact ⟨i, ⟨x, rfl, whole, inside⟩, rfl⟩
  | dict a =>
      simp only [Store.place, Attempt.bind_eq_ok, key_eq_ok_iff, Except.ok.injEq]
      constructor
      · rintro ⟨k, rfl, rfl⟩
        exact .inr ⟨a, k, rfl, rfl, rfl⟩
      · rintro (⟨a, x, i, ⟨⟩, -⟩ | ⟨a, k, ⟨⟩, rfl, rfl⟩)
        exact ⟨k, rfl, rfl⟩
  | _ => simp [Store.place, Attempt.fail]

theorem indexSet_eq_ok_iff :
    s.indexSet target index value = .ok s' ↔
      ∃ place, s.place target index = .ok place ∧ s' = s.write place value := by
  simp only [indexSet, Attempt.bind_eq_ok, Except.ok.injEq, eq_comm (a := s')]

/-! ## The store after a write -/

theorem holds_list (inside : i < (s.items a).size) : s.cells[a]? = some (.list (s.items a)) := by
  unfold items at inside ⊢
  split
  · rename_i found
    rw [found]
  · rename_i none
    split at inside
    · rename_i found
      exact absurd found (none _)
    · simp at inside

theorem holds_dict (held : s.Holds (.dict a)) : s.cells[a]? = some (.dict (s.entries a)) := by
  obtain ⟨entries, found⟩ := held
  rw [Store.entries, found]

theorem itemWritten_setItem (inside : i < (s.items a).size) (value : Value) :
    ItemWritten s (s.setItem a i value) a i value where
  inside := inside
  written := by
    simp [setItem, Array.getElem?_modify, holds_list inside, Array.setIfInBounds, inside]
  others b other := by
    simp [setItem, Array.getElem?_modify, Ne.symm other]

theorem entryWritten_setEntry (held : s.Holds (.dict a)) (key : String) (value : Value) :
    EntryWritten s (s.setEntry a key value) a key value where
  written := by
    refine ⟨(s.entries a).insert key value, ?_, ?_⟩
    · simp [setEntry, Array.getElem?_modify, holds_dict held]
    · rcases (s.entries a).toList_insert key value with old | ⟨new, appended⟩
      · exact .inl old
      · refine .inr ⟨fun old member => ?_, appended⟩
        rw [Dict.find?_eq_some_iff.2 member] at new
        cases new
  others b other := by
    simp [setEntry, Array.getElem?_modify, Ne.symm other]

/-! ## Reads after a write -/

/-- A slot that is no text away does not depend on the store. -/
theorem slot_plain (s s' : Store) (plain : index.address? = none) (length : Nat) :
    slot s.render index length = slot s'.render index length := by
  cases index with
  | number x => rfl
  | _ => simp only [slot, render_plain s s' plain]

theorem key_plain (s s' : Store) (plain : index.address? = none) : s.key index = s'.key index := by
  cases index with
  | string text => rfl
  | _ => simp only [Store.key, render_plain s s' plain]

/-- Only numbers and strings are indices that something can be read at. -/
theorem plain_of_indexGet {v : Value} (read : s.indexGet target index = .ok v) :
    index.address? = none := by
  cases target with
  | list a =>
      obtain ⟨x, i, inside, rfl, -⟩ := indexGet_list_eq_ok_iff.1 read
      rfl
  | string text =>
      obtain ⟨x, i, inside, rfl, -⟩ := indexGet_string_eq_ok_iff.1 read
      rfl
  | dict a =>
      obtain ⟨k, rfl, -⟩ := indexGet_dict_eq_ok_iff.1 read
      rfl
  | _ => cases read

section

variable {written : Place} (sizes : ∀ b, (s'.items b).size = (s.items b).size)
  (items : ∀ b i, written ≠ .item b i → (s'.items b)[i]? = (s.items b)[i]?)
  (entries : ∀ b k, written ≠ .entry b k → (s'.entries b).find? k = (s.entries b).find? k)

include entries

theorem fieldGet_of_contents {name : String}
    (away : s.place target (.string name) ≠ .ok written) :
    s'.fieldGet target name = s.fieldGet target name := by
  cases target with
  | dict b =>
      have other : written ≠ .entry b name := by
        rintro rfl
        exact away (place_eq_ok_iff.2 (.inr ⟨b, name, rfl, rfl, rfl⟩))
      simp only [fieldGet, entries b name other]
  | _ => rfl

include sizes items

theorem indexGet_of_contents (away : s.place target index ≠ .ok written)
    (plain : index.address? = none) : s'.indexGet target index = s.indexGet target index := by
  cases target with
  | list b =>
      simp only [indexGet, sizes, slot_plain s' s plain]
      cases found : slot s.render index (s.items b).size with
      | error halt => rfl
      | ok i =>
          obtain ⟨x, rfl, whole, inside⟩ := slot_eq_ok_iff.1 found
          have other : written ≠ .item b i := by
            rintro rfl
            exact away (place_eq_ok_iff.2 (.inl ⟨b, x, i, rfl, rfl, whole, inside, rfl⟩))
          change Except.ok _ = Except.ok _
          rw [items b i other]
  | string text => simp only [indexGet, slot_plain s' s plain]
  | dict b =>
      simp only [indexGet, key_plain s' s plain]
      cases found : s.key index with
      | error halt => rfl
      | ok k =>
          obtain rfl := key_eq_ok_iff.1 found
          have other : written ≠ .entry b k := by
            rintro rfl
            exact away (place_eq_ok_iff.2 (.inr ⟨b, k, rfl, rfl, rfl⟩))
          change Except.ok _ = Except.ok _
          rw [entries b k other]
  | _ => rfl

/-- A read is what it was if sizes are, and what stands in the places that are not written. -/
theorem sameElsewhere_of_contents : SameElsewhere s s' written where
  reads target index v away := by
    have same := indexGet_of_contents sizes items entries away
    constructor
    · intro read
      rw [← same (plain_of_indexGet read)]
      exact read
    · intro read
      rw [same (plain_of_indexGet read)]
      exact read
  plain _ _ := indexGet_of_contents sizes items entries
  fields _ _ := fieldGet_of_contents entries

end

theorem sameElsewhere_setItem (s : Store) (a i : Nat) (value : Value) :
    SameElsewhere s (s.setItem a i value) (.item a i) := by
  refine sameElsewhere_of_contents (fun b => ?_) (fun b j away => ?_) (fun b k _ => ?_)
  · rw [items_setItem]
    split
    · rename_i same
      simp [same]
    · rfl
  · rw [items_setItem]
    split
    · rename_i same
      subst same
      have other : i ≠ j := by
        rintro rfl
        exact away rfl
      exact Array.getElem?_setIfInBounds_ne other
    · rfl
  · rw [entries_setItem]

theorem sameElsewhere_setEntry (held : s.Holds (.dict a)) (key : String) (value : Value) :
    SameElsewhere s (s.setEntry a key value) (.entry a key) := by
  refine sameElsewhere_of_contents (fun b => ?_) (fun b j _ => ?_) (fun b k away => ?_)
  · rw [items_setEntry]
  · rw [items_setEntry]
  · rw [entries_setEntry (holds_dict held)]
    split
    · rename_i same
      subst same
      have other : k ≠ key := by
        rintro rfl
        exact away rfl
      rw [Dict.find?_insert, if_neg other]
    · rfl

theorem indexGet_setItem {x : Float} (whole : Number.value? x = some (i : ℚ))
    (inside : i < (s.items a).size) (value : Value) :
    (s.setItem a i value).indexGet (.list a) (.number x) = .ok value := by
  refine indexGet_list_eq_ok_iff.2 ⟨x, i, ?_, rfl, whole, ?_⟩
  · simpa [items_setItem] using inside
  · simp [items_setItem]

theorem indexGet_setEntry (held : s.Holds (.dict a)) (key : String) (value : Value) :
    (s.setEntry a key value).indexGet (.dict a) (.string key) = .ok value := by
  refine indexGet_dict_eq_ok_iff.2 ⟨key, rfl, ?_⟩
  rw [entries_setEntry (holds_dict held), if_pos rfl, Dict.find?_insert, if_pos rfl]
  rfl

/-! ## Reads where nothing can be written -/

/-- The list that is written matters to its index only if the index is no number. -/
theorem slot_heeds (s : Store) (a : Nat) (index : Value) (length : Nat) :
    Attempt.Heeds (slot (s.renderLocked a) index length) (slot s.render index length) := by
  cases index with
  | number x => exact .refl _
  | _ => exact (s.renderLocked_heeds a _).bind fun text => .refl _

/-- A write to a list ends as the read of it does, unless it stops the run dead. -/
theorem indexSet_list_ending (alive : s.indexSet (.list a) index value ≠ .error .aborted) :
    (s.indexSet (.list a) index value).map (fun _ => ()) =
      (s.indexGet (.list a) index).map fun _ => () := by
  have same := s.slot_heeds a index (s.items a).size
  simp only [indexSet, Store.place, indexGet] at alive ⊢
  have found : slot (s.renderLocked a) index (s.items a).size ≠ .error .aborted := by
    intro dead
    rw [dead] at alive
    exact alive rfl
  rw [same found]
  cases slot s.render index (s.items a).size <;> rfl

/-- A held value with the address of a held container is that container. -/
theorem eq_of_address {v w : Value} (held : s.Holds v) (held' : s.Holds w)
    (address : v.address? = some a) (same : w.address? = v.address?) : w = v := by
  cases v <;> cases address <;> cases w <;> cases same
  · rfl
  · obtain ⟨_, list⟩ := held
    obtain ⟨_, dict⟩ := held'
    rw [list] at dict
    cases dict
  · obtain ⟨_, dict⟩ := held
    obtain ⟨_, list⟩ := held'
    rw [list] at dict
    cases dict
  · rfl

end Store

namespace Eval

variable {t : FunctionTable} {p : Position} {e i w : Expr} {steps : Nat} {s s₁ s₂ s' : State}
  {target index value : Value}

/-- Once its operands are there, an assignment to an index finds the place and writes to it. -/
theorem expr_setIndex_eq (first : expr t e steps s = .done target s₁)
    (second : expr t i steps s₁ = .done index s₂) (third : expr t w steps s₂ = .done value s') :
    expr t (.setIndex p e i w) (steps + 1) s =
      (Run.attempt p (·.place target index) >>= fun place =>
        Run.write place value >>= fun _ => pure value) s' := by
  simp only [expr]
  rw [Run.bind_done first, Run.bind_done second, Run.bind_done third]

/-- An assignment to an index, once its operands are there, is a write to the store. -/
theorem expr_setIndex (first : expr t e steps s = .done target s₁)
    (second : expr t i steps s₁ = .done index s₂) (third : expr t w steps s₂ = .done value s') :
    (∀ store, s'.store.indexSet target index value = .ok store →
        expr t (.setIndex p e i w) (steps + 1) s = .done value { s' with store }) ∧
      ∀ cause, s'.store.indexSet target index value = .error (.fault cause) →
        expr t (.setIndex p e i w) (steps + 1) s = .failed (s'.calls.failure cause p) s' := by
  rw [expr_setIndex_eq first second third]
  cases found : s'.store.place target index with
  | ok place =>
      have done : Run.attempt p (·.place target index) s' = .done place s' := by
        simp only [Run.attempt, found]
      rw [Run.bind_done done, Store.indexSet, found]
      refine ⟨fun store written => ?_, nofun⟩
      cases written
      rfl
  | error halt =>
      rw [Store.indexSet, found]
      refine ⟨nofun, fun cause failed => ?_⟩
      cases failed
      change Run.bind (Run.attempt p (·.place target index)) _ s' = _
      simp only [Run.bind, Run.attempt, found]

end Eval

namespace Store

/-- **A write by index changes one place and no other.**  An assignment to an index does such a
write, or fails and leaves the store as it was.  The write goes to a slot that the list has, or
to a key, and every value with the address of the target shows it; all other reads are what they
were.  A list can be written where it can be read, and both end in the same fault elsewhere; lists
and strings are read at the integers that are slots of them. -/
theorem write_changes_one_place (s : State) (target index value : Value)
    (held : s.store.Holds target) :
    (∀ t p e i w steps s₀ s₁ s₂, Eval.expr t e steps s₀ = .done target s₁ →
        Eval.expr t i steps s₁ = .done index s₂ → Eval.expr t w steps s₂ = .done value s →
        (∀ store, s.store.indexSet target index value = .ok store →
          Eval.expr t (.setIndex p e i w) (steps + 1) s₀ = .done value { s with store }) ∧
        ∀ cause, s.store.indexSet target index value = .error (.fault cause) →
          Eval.expr t (.setIndex p e i w) (steps + 1) s₀ =
            .failed (s.calls.failure cause p) s) ∧
    (∀ store, s.store.indexSet target index value = .ok store →
        ((∃ a x, ∃ i : Nat, target = .list a ∧ index = .number x ∧
            Number.value? x = some (i : ℚ) ∧ ItemWritten s.store store a i value) ∨
          ∃ a k, target = .dict a ∧ index = .string k ∧ EntryWritten s.store store a k value) ∧
        (∀ other, store.Holds other → other.address? = target.address? →
          store.indexGet other index = .ok value) ∧
        ∃ place, s.store.place target index = .ok place ∧ SameElsewhere s.store store place) ∧
    (∀ a, target = .list a → s.store.indexSet target index value ≠ .error .aborted →
        (s.store.indexSet target index value).map (fun _ => ()) =
          (s.store.indexGet target index).map fun _ => ()) ∧
    (∀ a v, s.store.indexGet (.list a) index = .ok v ↔
        ∃ x, ∃ i : Nat, ∃ inside : i < (s.store.items a).size, index = .number x ∧
          Number.value? x = some (i : ℚ) ∧ v = (s.store.items a)[i]) ∧
    ∀ text v, s.store.indexGet (.string text) index = .ok v ↔
      ∃ x, ∃ i : Nat, ∃ inside : i < text.toList.length, index = .number x ∧
        Number.value? x = some (i : ℚ) ∧ v = .string (String.singleton text.toList[i]) := by
  refine ⟨fun t p e i w steps s₀ s₁ s₂ first second third => ?_, fun store written => ?_,
    fun a list alive => ?_, fun a v => indexGet_list_eq_ok_iff,
    fun text v => indexGet_string_eq_ok_iff⟩
  · exact Eval.expr_setIndex first second third
  · obtain ⟨place, found, rfl⟩ := indexSet_eq_ok_iff.1 written
    rcases place_eq_ok_iff.1 found with
      ⟨a, x, i, rfl, rfl, whole, inside, rfl⟩ | ⟨a, k, rfl, rfl, rfl⟩
    · have exact := itemWritten_setItem inside value
      refine ⟨.inl ⟨a, x, i, rfl, rfl, whole, exact⟩, fun other there address => ?_, _, found,
        sameElsewhere_setItem s.store a i value⟩
      have now : (s.store.setItem a i value).Holds (.list a) := ⟨_, exact.written⟩
      obtain rfl := eq_of_address now there rfl address
      exact indexGet_setItem whole inside value
    · have exact := entryWritten_setEntry held k value
      refine ⟨.inr ⟨a, k, rfl, rfl, exact⟩, fun other there address => ?_, _, found,
        sameElsewhere_setEntry held k value⟩
      obtain ⟨entries, stored, -⟩ := exact.written
      have now : (s.store.setEntry a k value).Holds (.dict a) := ⟨entries, stored⟩
      obtain rfl := eq_of_address now there rfl address
      exact indexGet_setEntry held k value
  · subst list
    exact indexSet_list_ending alive

/-- A list is written into itself, at negative zero. -/
theorem write_of_list_into_itself :
    let store : Store := ⟨#[.list #[.null, .bool true]]⟩
    let s : State := { State.start (.lines []) with store }
    let zero : Value := .number (-0.0)
    s.store.Holds (.list 0) ∧ ∃ store', s.store.indexSet (.list 0) zero (.list 0) = .ok store' ∧
      store'.Holds (.list 0) ∧ store'.indexGet (.list 0) zero = .ok (.list 0) := by
  intro store s zero
  have held : s.store.Holds (.list 0) := ⟨_, rfl⟩
  have whole : Number.value? (-0.0) = some ((0 : ℕ) : ℚ) :=
    Number.whole?_eq_some_iff.1 (by decide +kernel)
  have place : s.store.place (.list 0) zero = .ok (.item 0 0) :=
    place_eq_ok_iff.2 (.inl ⟨0, -0.0, 0, rfl, rfl, whole, by decide, rfl⟩)
  have written : s.store.indexSet (.list 0) zero (.list 0) = .ok (s.store.setItem 0 0 (.list 0)) :=
    indexSet_eq_ok_iff.2 ⟨_, place, rfl⟩
  have now : (s.store.setItem 0 0 (.list 0)).Holds (.list 0) := ⟨_, rfl⟩
  obtain ⟨-, writes, -⟩ := write_changes_one_place s (.list 0) zero (.list 0) held
  obtain ⟨-, shown, -⟩ := writes _ written
  exact ⟨held, _, written, now, shown _ now rfl⟩

end Store

end Script
