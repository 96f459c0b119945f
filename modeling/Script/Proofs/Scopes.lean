/-
# Script.Proofs.Scopes -- which names the scopes bind, and to what

`Scope.names` are the names a scope binds, whatever their values.  Two relations
compare the scopes before and after a piece of work.

* `Scopes.Rebound`: there are as many scopes, and each binds the names it bound.
* `Scopes.Grown`: the same, except that the innermost scope may bind further names.

Setting a variable makes the scopes grow.  Growth inside a scope of its own is gone when
that scope is closed: what is left are rebound scopes (`Grown.pop`).

`Scopes.All` says that every bound value has a property.  Opening and closing scopes keeps
it, and setting a variable does when the new value has it.
-/
import Script.Scopes
import Mathlib.Data.Set.Insert

namespace Script

set_option autoImplicit false

namespace Scope

/-- The names that the scope binds. -/
def names (s : Scope) : Set String :=
  {name | s.contains name = true}

theorem mem_names {s : Scope} {name : String} : name ∈ s.names ↔ s.contains name = true :=
  Iff.rfl

theorem names_empty : empty.names = ∅ := by
  ext name
  simp [mem_names, contains, find?_empty]

theorem names_set (s : Scope) (name : String) (value : Value) :
    (s.set name value).names = insert name s.names := by
  ext other
  simp only [mem_names, contains, find?_set, Set.mem_insert_iff]
  split <;> simp_all

/-- Setting a name that is bound binds no other. -/
theorem names_set_of_contains {s : Scope} {name : String} (value : Value)
    (bound : s.contains name = true) : (s.set name value).names = s.names := by
  rw [names_set]
  exact Set.insert_eq_of_mem bound

/-- Only the empty scope binds nothing. -/
theorem eq_empty_of_names {s : Scope} (none : s.names = ∅) : s = empty := by
  obtain ⟨bindings⟩ := s
  cases bindings with
  | nil => rfl
  | cons b rest =>
      have bound : b.1 ∈ (Scope.mk (b :: rest)).names := by
        simp [mem_names, contains, find?]
      rw [none] at bound
      cases bound

end Scope

namespace Scopes

/-- As many scopes, each with the names it had. -/
def Rebound (s s' : Scopes) : Prop :=
  s'.toList.map Scope.names = s.toList.map Scope.names

/-- As many scopes, of which the innermost may have further names. -/
structure Grown (s s' : Scopes) : Prop where
  inner : s.inner.names ⊆ s'.inner.names
  outer : s'.outer.map Scope.names = s.outer.map Scope.names

theorem rebound_iff {s s' : Scopes} :
    s.Rebound s' ↔
      s'.inner.names = s.inner.names ∧ s'.outer.map Scope.names = s.outer.map Scope.names := by
  simp [Rebound, toList]

theorem Rebound.refl (s : Scopes) : s.Rebound s := rfl

theorem Rebound.trans {r s u : Scopes} (first : r.Rebound s) (second : s.Rebound u) :
    r.Rebound u :=
  Eq.trans second first

theorem Grown.refl (s : Scopes) : s.Grown s :=
  ⟨Set.Subset.rfl, rfl⟩

theorem Grown.trans {r s u : Scopes} (first : r.Grown s) (second : s.Grown u) : r.Grown u :=
  ⟨first.inner.trans second.inner, second.outer.trans first.outer⟩

theorem Rebound.grown {s s' : Scopes} (rebound : s.Rebound s') : s.Grown s' := by
  obtain ⟨inner, outer⟩ := rebound_iff.1 rebound
  exact ⟨inner.superset, outer⟩

theorem Grown.depth {s s' : Scopes} (grown : s.Grown s') : s'.depth = s.depth := by
  have lengths := congrArg List.length grown.outer
  simp only [List.length_map] at lengths
  simp only [Scopes.depth, lengths]

/-- Only one empty scope has the names of one empty scope. -/
theorem Rebound.eq_start {s : Scopes} (rebound : start.Rebound s) : s = start := by
  obtain ⟨inner, outer⟩ := rebound_iff.1 rebound
  obtain ⟨first, others⟩ := s
  have empty : first = .empty := Scope.eq_empty_of_names (inner.trans Scope.names_empty)
  have alone : others = [] := List.map_eq_nil_iff.1 outer
  rw [empty, alone]
  rfl

/-! ## What the operations do to the names -/

theorem names_overwrite? {name : String} {value : Value} :
    ∀ {scopes scopes' : List Scope}, overwrite? name value scopes = some scopes' →
      scopes'.map Scope.names = scopes.map Scope.names
  | [], scopes', found => by cases found
  | scope :: rest, scopes', found => by
      rw [overwrite?] at found
      split at found
      · rename_i bound
        cases found
        simp [Scope.names_set_of_contains value bound]
      · obtain ⟨rest', later, rfl⟩ := Option.map_eq_some_iff.1 found
        simp [names_overwrite? later]

theorem overwrite?_eq_none_iff {name : String} {value : Value} :
    ∀ {scopes : List Scope},
      overwrite? name value scopes = none ↔ scopes.any (·.contains name) = false
  | [] => by simp [overwrite?]
  | scope :: rest => by
      rw [overwrite?, List.any_cons]
      split
      · rename_i bound
        simp [bound]
      · rename_i unbound
        rw [Option.map_eq_none_iff, overwrite?_eq_none_iff, Bool.eq_false_iff.2 unbound,
          Bool.false_or]

/-- The nearest binding may stand in the first scopes or in the others. -/
theorem overwrite?_append (name : String) (value : Value) (below : List Scope) :
    ∀ own : List Scope, overwrite? name value (own ++ below) =
      ((overwrite? name value own).map (· ++ below)).or
        ((overwrite? name value below).map (own ++ ·))
  | [] => by simp [overwrite?]
  | scope :: rest => by
      rw [List.cons_append, overwrite?, overwrite?]
      split
      · rfl
      · rw [overwrite?_append name value below rest]
        cases overwrite? name value rest <;> cases overwrite? name value below <;> rfl

/-- Binding a name in the innermost scope. -/
theorem grown_set (s : Scopes) (name : String) (value : Value) :
    s.Grown { s with inner := s.inner.set name value } := by
  refine ⟨?_, rfl⟩
  rw [Scope.names_set]
  exact Set.subset_insert name s.inner.names

theorem grown_define {s s' : Scopes} {name : String} {value : Value}
    (defined : s.define name value = .ok s') : s.Grown s' := by
  unfold define at defined
  split at defined
  · cases defined
  · cases defined
    exact s.grown_set name value

theorem grown_assign (s : Scopes) (name : String) (value : Value) :
    s.Grown (s.assign name value) := by
  unfold assign
  split
  · exact s.grown_set name value
  · split
    · rename_i outer found
      exact ⟨Set.Subset.rfl, names_overwrite? found⟩
    · exact s.grown_set name value

/-- An assignment overwrites the nearest binding, or else binds the name in the innermost scope. -/
theorem toList_assign (s : Scopes) (name : String) (value : Value) :
    (s.assign name value).toList =
      (overwrite? name value s.toList).getD (s.inner.set name value :: s.outer) := by
  simp only [assign, toList, overwrite?]
  split
  · rfl
  · cases overwrite? name value s.outer <;> rfl

theorem lookup_overwrite? {name : String} {value : Value} :
    ∀ {scopes scopes' : List Scope}, overwrite? name value scopes = some scopes' →
      scopes'.findSome? (·.find? name) = some value
  | [], scopes', found => by cases found
  | scope :: rest, scopes', found => by
      rw [overwrite?] at found
      split at found
      · cases found
        simp [Scope.find?_set]
      · rename_i unbound
        obtain ⟨rest', later, rfl⟩ := Option.map_eq_some_iff.1 found
        have none : scope.find? name = none := by simpa [Scope.contains] using unbound
        rw [List.findSome?_cons, none]
        exact lookup_overwrite? later

/-- What was assigned is what the name means. -/
theorem lookup_assign (s : Scopes) (name : String) (value : Value) :
    (s.assign name value).lookup name = some value := by
  rw [lookup, toList_assign]
  cases found : overwrite? name value s.toList with
  | some scopes => exact lookup_overwrite? found
  | none => simp [Scope.find?_set]

/-- Some scope has the name. -/
theorem has_iff {s : Scopes} {name : String} :
    s.has name = true ↔ ∃ names ∈ s.toList.map Scope.names, name ∈ names := by
  simp [has, Scope.mem_names]

/-- With the same names in all scopes, the same are bound. -/
theorem Rebound.has {s s' : Scopes} (rebound : s.Rebound s') (name : String) :
    s'.has name = s.has name := by
  rw [Bool.eq_iff_iff, has_iff, has_iff, rebound]

/-- A name that the innermost scope does not have means what it means outside. -/
theorem lookup_outer {s : Scopes} {name : String} (away : name ∉ s.inner.names) :
    s.lookup name = s.outer.findSome? (·.find? name) := by
  have none : s.inner.find? name = none := by
    simpa [Scope.mem_names, Scope.contains] using away
  rw [lookup, toList, List.findSome?_cons, none]

/-- A name that no outer scope has means what it means in the innermost. -/
theorem lookup_inner {s : Scopes} {name : String}
    (away : ∀ names ∈ s.outer.map Scope.names, name ∉ names) :
    s.lookup name = s.inner.find? name := by
  have none : s.outer.findSome? (·.find? name) = none := by
    refine List.findSome?_eq_none_iff.2 fun scope member => ?_
    simpa [Scope.mem_names, Scope.contains] using away _ (List.mem_map_of_mem member)
  rw [lookup, toList, List.findSome?_cons, none]
  cases s.inner.find? name <;> rfl

/-- Closing the innermost of several scopes leaves the others. -/
theorem toList_pop {s : Scopes} {scope : Scope} {rest : List Scope} (more : rest ≠ [])
    (scopes : s.toList = scope :: rest) : s.pop.toList = rest := by
  obtain ⟨inner, outer⟩ := s
  cases scopes
  cases outer with
  | nil => exact absurd rfl more
  | cons scope rest => rfl

/-- Whatever happens to a scope of its own, closing it leaves the names of the others. -/
theorem Grown.pop {s s' : Scopes} (grown : s.push.Grown s') : s.Rebound s'.pop := by
  obtain ⟨inner, outer⟩ := s'
  have same : outer.map Scope.names = s.toList.map Scope.names := grown.outer
  cases outer with
  | nil => cases same
  | cons scope rest => exact same

end Scopes

/-! ## The values that are bound -/

/-- Every value that the scope binds a name to is such. -/
def Scope.All (P : Value → Prop) (s : Scope) : Prop :=
  ∀ b ∈ s.bindings, P b.2

namespace Scope

variable {P : Value → Prop}

theorem all_empty : empty.All P :=
  fun _ member => nomatch member

theorem mem_bind {name : String} {value : Value} {b : String × Value} :
    ∀ {bindings : List (String × Value)}, b ∈ bind name value bindings →
      b ∈ bindings ∨ b = (name, value)
  | [], member => .inr (List.mem_singleton.1 member)
  | (other, old) :: rest, member => by
      rw [bind] at member
      split at member
      · rcases List.mem_cons.1 member with rfl | member
        · exact .inr rfl
        · exact .inl (List.mem_cons_of_mem _ member)
      · rcases List.mem_cons.1 member with rfl | member
        · exact .inl List.mem_cons_self
        · exact (mem_bind member).imp_left (List.mem_cons_of_mem _)

theorem All.set {s : Scope} {value : Value} (all : s.All P) (name : String) (new : P value) :
    (s.set name value).All P := by
  intro b member
  rcases mem_bind member with old | rfl
  · exact all b old
  · exact new

theorem All.find? {s : Scope} {name : String} {value : Value} (all : s.All P)
    (found : s.find? name = some value) : P value := by
  obtain ⟨bindings⟩ := s
  induction bindings with
  | nil => cases found
  | cons b rest ih =>
      obtain ⟨first, others⟩ := List.forall_mem_cons.1 all
      change List.lookup name (b :: rest) = some value at found
      rw [List.lookup_cons] at found
      split at found
      · exact Option.some.inj found ▸ first
      · exact ih others found

end Scope

/-- Every value that a scope binds a name to is such. -/
def Scopes.All (P : Value → Prop) (s : Scopes) : Prop :=
  ∀ scope ∈ s.toList, scope.All P

namespace Scopes

variable {P : Value → Prop} {s : Scopes} {name : String} {value : Value}

theorem all_start : start.All P :=
  fun _ member => List.mem_singleton.1 member ▸ Scope.all_empty

theorem all_iff : s.All P ↔ s.inner.All P ∧ ∀ scope ∈ s.outer, scope.All P :=
  List.forall_mem_cons

theorem All.imp {Q : Value → Prop} (all : s.All P) (more : ∀ v, P v → Q v) : s.All Q :=
  fun scope member b bound => more b.2 (all scope member b bound)

theorem All.push (all : s.All P) : s.push.All P :=
  all_iff.2 ⟨Scope.all_empty, all⟩

theorem All.pop (all : s.All P) : s.pop.All P := by
  obtain ⟨inner, outer⟩ := s
  cases outer with
  | nil => exact all
  | cons scope rest => exact (all_iff.1 all).2

theorem All.setInner (all : s.All P) (name : String) (new : P value) :
    Scopes.All P { s with inner := s.inner.set name value } := by
  obtain ⟨inner, outer⟩ := all_iff.1 all
  exact all_iff.2 ⟨inner.set name new, outer⟩

theorem All.define {s' : Scopes} (all : s.All P) (new : P value)
    (defined : s.define name value = .ok s') : s'.All P := by
  unfold Scopes.define at defined
  split at defined
  · cases defined
  · cases defined
    exact all.setInner name new

theorem all_overwrite? (new : P value) :
    ∀ {scopes scopes' : List Scope}, (∀ scope ∈ scopes, scope.All P) →
      overwrite? name value scopes = some scopes' → ∀ scope ∈ scopes', scope.All P
  | [], _, _, found => by cases found
  | scope :: rest, scopes', all, found => by
      obtain ⟨first, others⟩ := List.forall_mem_cons.1 all
      rw [overwrite?] at found
      split at found
      · cases found
        exact List.forall_mem_cons.2 ⟨first.set name new, others⟩
      · obtain ⟨rest', later, rfl⟩ := Option.map_eq_some_iff.1 found
        exact List.forall_mem_cons.2 ⟨first, all_overwrite? new others later⟩

theorem All.assign (all : s.All P) (name : String) (new : P value) :
    (s.assign name value).All P := by
  obtain ⟨inner, outer⟩ := all_iff.1 all
  unfold Scopes.assign
  split
  · exact all.setInner name new
  · split
    · rename_i outer' found
      exact all_iff.2 ⟨inner, all_overwrite? new outer found⟩
    · exact all.setInner name new

theorem All.lookup (all : s.All P) (found : s.lookup name = some value) : P value := by
  obtain ⟨scope, member, found⟩ := List.exists_of_findSome?_eq_some found
  exact (all scope member).find? found

end Scopes
end Script
