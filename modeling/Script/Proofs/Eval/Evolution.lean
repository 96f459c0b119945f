/-
# Script.Proofs.Eval.Evolution -- what has happened to a store since

Of what a program does to its store only two things are lasting: it makes containers, and
it writes by index.  `Store.Evolves` lists the targets of the writes that lead from one store to
a later one.  A list keeps its contents as long as it is not among these
(`Store.Evolves.items`), and in a run each moment's store evolves into that of every
later moment (`Eval.history_evolves`).
-/
import Script.Proofs.Access.Writing
import Script.Proofs.Eval.Course
import Script.Proofs.Store.Order

namespace Script

set_option autoImplicit false

namespace Store

variable {s s' s'' : Store} {target index value : Value} {targets more : List Value} {a : Nat}

/-- The first store became the second by containers that were made and by writes by index through
the targets, one after the other. -/
inductive Evolves (s : Store) : List Value → Store → Prop
  | refl : Evolves s [] s
  | newList {targets : List Value} {s' : Store} (items : Array Value) :
      Evolves s targets s' → Evolves s targets (s'.newList items).2
  | newDict {targets : List Value} {s' : Store} (entries : Dict Value) :
      Evolves s targets s' → Evolves s targets (s'.newDict entries).2
  | write {targets : List Value} {s' s'' : Store} {target index value : Value} :
      Evolves s targets s' → s'.indexSet target index value = .ok s'' →
        Evolves s (targets ++ [target]) s''

/-- A write changes no list but the one it goes through. -/
theorem items_indexSet (written : s.indexSet target index value = .ok s')
    (other : target ≠ .list a) : s'.items a = s.items a ∧ s'.size = s.size := by
  obtain ⟨place, found, rfl⟩ := indexSet_eq_ok_iff.1 written
  have size : (s.write place value).size = s.size := by
    cases place <;> simp [Store.write, setItem, setEntry, Store.size]
  refine ⟨?_, size⟩
  rcases place_eq_ok_iff.1 found with ⟨b, x, i, rfl, -, -, -, rfl⟩ | ⟨b, key, -, -, rfl⟩
  · rw [Store.write, items_setItem, if_neg]
    rintro rfl
    exact other rfl
  · rw [Store.write, items_setEntry]

theorem items_push {cell : Cell} (there : a < s.size) :
    Store.items ⟨s.cells.push cell⟩ a = s.items a := by
  simp only [Store.items, pushed_below cell there]

namespace Evolves

theorem trans (first : s.Evolves targets s') (second : s'.Evolves more s'') :
    s.Evolves (targets ++ more) s'' := by
  induction second with
  | refl => rwa [List.append_nil]
  | newList items _ ih => exact ih.newList items
  | newDict entries _ ih => exact ih.newDict entries
  | write _ written ih =>
      rw [← List.append_assoc]
      exact ih.write written

/-- A list that nothing was written through has kept its contents, and no address is lost. -/
theorem items (evolves : s.Evolves targets s') (there : a < s.size)
    (unwritten : .list a ∉ targets) : s'.items a = s.items a ∧ s.size ≤ s'.size := by
  induction evolves with
  | refl => exact ⟨rfl, le_rfl⟩
  | newList items _ ih | newDict items _ ih =>
      obtain ⟨same, grown⟩ := ih unwritten
      refine ⟨(items_push (Nat.lt_of_lt_of_le there grown)).trans same, ?_⟩
      simpa [Store.newList, Store.newDict, Store.size] using Nat.le_succ_of_le grown
  | write _ written ih =>
      rw [List.mem_append, not_or, List.mem_singleton] at unwritten
      obtain ⟨same, grown⟩ := ih unwritten.1
      obtain ⟨kept, size⟩ := items_indexSet written (Ne.symm unwritten.2)
      exact ⟨kept.trans same, size.symm ▸ grown⟩

end Evolves

end Store

namespace Eval

/-- Stores evolve as programs run. -/
def evolution (t : FunctionTable) : Upkeep t where
  sound _ := True
  fine _ _ := True
  grows s s' := ∃ targets, s.Evolves targets s'
  mayWrite := True
  grows_refl _ := ⟨[], .refl⟩
  grows_trans := fun ⟨_, first⟩ ⟨_, second⟩ => ⟨_, first.trans second⟩
  fine_grows _ _ := trivial
  fine_plain _ := trivial
  fine_function _ := trivial
  fine_held _ _ _ := trivial
  newList _ _ := ⟨trivial, ⟨[], .newList _ .refl⟩, trivial⟩
  newDict _ _ := ⟨trivial, ⟨[], .newDict _ .refl⟩, trivial⟩
  write _ _ _ _ found :=
    ⟨trivial, _, .write .refl (Store.indexSet_eq_ok_iff.2 ⟨_, found, rfl⟩)⟩
  code _ _ _ _ := trivial

/-- From each moment of a run the store evolves to every later one. -/
theorem history_evolves (t : FunctionTable) (steps : Nat) (w : Work) (s : State) :
    (history t steps w s).Pairwise fun m m' =>
      ∃ targets, m.state.store.Evolves targets m'.state.store := by
  have ready : (evolution t).Ready w s :=
    ⟨⟨trivial, fun _ _ _ _ => trivial, fun _ _ => trivial⟩, fun _ _ _ => trivial⟩
  exact ((evolution t).history_kept steps ready).order

end Eval

end Script
