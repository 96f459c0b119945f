/-
# Script.Proofs.Eval.ReadOnly -- programs without index assignments

Where no function assigns to an index, nothing that was made ever changes: the store only
gets longer.  What a container holds was there when it was made, so the store is ordered at
every moment, no value contains itself, and every value that has come up can be rendered and
compared with every other.
-/
import Mathlib
import Script.Proofs.Eval.Course
import Script.Proofs.Store.Order

namespace Script

set_option autoImplicit false

/-- No function of the table has an assignment to an index. -/
def FunctionTable.ReadOnly (t : FunctionTable) : Prop :=
  ∀ entry ∈ t.entries, ∀ e ∈ entry.2.expressions, e.writes = false

theorem FunctionTable.ReadOnly.find? {t : FunctionTable} {name : String} {f : Function}
    (readOnly : t.ReadOnly) (found : t.find? name = some f) :
    ∀ e ∈ f.expressions, e.writes = false := by
  obtain ⟨before, after, split, -⟩ := List.lookup_eq_some_iff.1 found
  exact readOnly (name, f) (by simp [split])

namespace Store

variable {s s' : Store}

/-- All containers are there as they were, and there may be further ones. -/
def Extends (s s' : Store) : Prop :=
  s.cells.toList <+: s'.cells.toList

theorem Extends.size (extended : s.Extends s') : s.size ≤ s'.size := by
  simpa [Store.size] using extended.length_le

theorem extends_push (s : Store) (cell : Cell) : s.Extends ⟨s.cells.push cell⟩ := by
  rw [Extends, Array.toList_push]
  exact List.prefix_append _ _

end Store

namespace Eval

/-- Without index assignments the store is ordered, is only extended, and every value is stored
in it. -/
def readOnlyUpkeep {t : FunctionTable} (plain : t.ReadOnly) : Upkeep t where
  sound := Store.Ordered
  fine s v := v.Below s.size
  grows := Store.Extends
  mayWrite := False
  grows_refl _ := List.prefix_rfl
  grows_trans := List.IsPrefix.trans
  fine_grows extended stored := stored.mono extended.size
  fine_plain plain := by
    intro a held
    rw [plain.address?] at held
    cases held
  fine_function := fun _ _ held => nomatch held
  fine_held ordered stored held := ordered.held_below (stored.mono (Nat.le_succ _)) held
  newList := by
    intro s items ordered stored
    refine ⟨ordered.push stored, s.extends_push _, ?_⟩
    rintro a ⟨⟩
    simp [Store.newList, Store.size]
  newDict := by
    intro s entries ordered stored
    refine ⟨ordered.push (List.forall_mem_map.2 stored), s.extends_push _, ?_⟩
    rintro a ⟨⟩
    simp [Store.newDict, Store.size]
  write := False.elim
  code found e member writes := by
    rw [plain.find? found e member] at writes
    cases writes

theorem ready_main {t : FunctionTable} (plain : t.ReadOnly) (input : Input) :
    (readOnlyUpkeep plain).Ready (.apply .start "main" []) (.start input) where
  fine := ⟨Store.ordered_empty, Scopes.all_start, fun _ member => nomatch member⟩
  code := Upkeep.permits_nil

/-- What is there at a moment is stored. -/
theorem below_of_has {t : FunctionTable} {plain : t.ReadOnly} {m : Moment} {v : Value}
    (fine : (readOnlyUpkeep plain).Fine m.values m.state) (has : m.Has v) :
    v.Below m.state.store.size := by
  rcases has with member | ⟨scope, member, b, bound, rfl⟩ | ⟨cell, member, held⟩
  · exact fine.atHand v member
  · exact fine.bound scope member b bound
  · obtain ⟨a, inside, found⟩ := List.mem_iff_getElem.1 member
    have there : m.state.store.cells[a]? = some cell := by
      rw [← found, Array.getElem_toList]
      exact Array.getElem?_eq_getElem _
    exact (fine.sound.below there held).mono (Nat.le_of_lt (by simpa [Store.size] using inside))

/-- **Without index assignments nothing changes and nothing contains itself.**  However far the
run of `main` gets: from each moment to every later one all containers are there as they were;
at every moment each holds only containers made before it, and so none is inside itself; and
every value that has come up has a text, and any two can be compared. -/
theorem unchanged_and_acyclic {t : FunctionTable} (plain : t.ReadOnly) (input : Input)
    (steps : Nat) :
    (mainHistory t input steps).Pairwise (fun m m' => m.state.store.Extends m'.state.store) ∧
    (∀ m ∈ mainHistory t input steps, m.state.store.Ordered ∧
      ∀ a, ¬ Relation.TransGen m.state.store.Inside a a) ∧
    ∀ before m after, mainHistory t input steps = before ++ m :: after →
      ∀ v w, (∃ m' ∈ before ++ [m], m'.Has v) → (∃ m' ∈ before ++ [m], m'.Has w) →
        (∃ text, m.state.store.render v = .ok text) ∧
          ∃ same, m.state.store.equal v w = .ok same := by
  have well := (readOnlyUpkeep plain).history_kept steps (ready_main plain input)
  refine ⟨well.order, fun m member => ?_, fun before m after split v w first second => ?_⟩
  · have ordered : m.state.store.Ordered := (well.all m member).2.sound
    exact ⟨ordered, ordered.acyclic⟩
  · have all := well.all
    have order := well.order
    change mainHistory t input steps = _ at split
    rw [mainHistory] at split
    rw [split] at all order
    have stored : ∀ x, (∃ m' ∈ before ++ [m], m'.Has x) → x.Below m.state.store.size := by
      rintro x ⟨m', member, has⟩
      rcases List.mem_append.1 member with earlier | same
      · have extended := (List.pairwise_append.1 order).2.2 m' earlier m List.mem_cons_self
        have fine := (all m' (List.mem_append_left _ earlier)).2
        exact (below_of_has fine has).mono (Store.Extends.size extended)
      · obtain rfl := List.mem_singleton.1 same
        exact below_of_has (all m' (by simp)).2 has
    have ordered : m.state.store.Ordered := (all m (by simp)).2.sound
    exact ⟨ordered.ends_render (stored v first),
      ordered.ends_equal (stored v first) (stored w second)⟩

/-- `fun pair(x) { return [x, x] }` and a `main` that maps it over a list joined to itself. -/
def pairs : FunctionTable where
  entries :=
    [("main", ⟨"main", [], [.declare ⟨1, 1⟩ "a" (.list ⟨1, 5⟩ [.list ⟨1, 6⟩ []]),
        .return ⟨2, 1⟩ (some (.call ⟨2, 8⟩ "map"
          [.binary ⟨2, 14⟩ .add (.name ⟨2, 12⟩ "a") (.name ⟨2, 16⟩ "a"),
            .string ⟨2, 19⟩ "pair"]))], ⟨1, 5⟩⟩),
      ("pair", ⟨"pair", ["x"], [.return ⟨4, 3⟩ (some (.list ⟨4, 10⟩
        [.name ⟨4, 11⟩ "x", .name ⟨4, 14⟩ "x"]))], ⟨3, 5⟩⟩)]

/-- The lists of pairs are made behind the lists they hold, which stay as they were. -/
theorem pairs_unchanged :
    pairs.ReadOnly ∧
    (mainHistory pairs (.lines []) 20).getLast?.map
      (fun m => (m.values, m.state.store.render (.list 5))) =
        some ([.list 5], .ok "[[[], []], [[], []]]") ∧
    (mainHistory pairs (.lines []) 20).Pairwise
      (fun m m' => m.state.store.Extends m'.state.store) ∧
    ∀ m ∈ mainHistory pairs (.lines []) 20, ∀ a, ¬ Relation.TransGen m.state.store.Inside a a := by
  have plain : pairs.ReadOnly := by
    unfold FunctionTable.ReadOnly
    decide
  obtain ⟨unchanged, acyclic, -⟩ := unchanged_and_acyclic plain (.lines []) 20
  exact ⟨plain, by cbv, unchanged, fun m member => (acyclic m member).2⟩

end Eval

end Script
