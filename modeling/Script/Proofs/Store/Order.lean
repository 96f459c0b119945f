/-
# Script.Proofs.Store.Order -- containers that hold only older ones

Addresses are given out in the order in which containers are made.  A store is `Ordered`
when every container holds only containers made before it.  Then no container is inside
itself (`Ordered.acyclic`), and since each step into a container goes to a lower address, a
value nests no deeper than its address is high (`Ordered.nests`).  So every stored value has
a text, and any two can be compared (`Ordered.ends_render`, `Ordered.ends_equal`).  Making a
container of stored values keeps the store ordered.

What a container holds comes from what it held and from what was put there last
(`held_after_write`, `held_after_push`), in any store.
-/
import Script.Access
import Script.Proofs.Store.Nesting

namespace Script

set_option autoImplicit false

/-- The value is no container, or one with an address below the bound. -/
def Value.Below (bound : Nat) (v : Value) : Prop :=
  ∀ a ∈ v.address?, a < bound

theorem Value.Below.mono {bound bound' : Nat} {v : Value} (below : v.Below bound)
    (more : bound ≤ bound') : v.Below bound' :=
  fun a held => Nat.lt_of_lt_of_le (below a held) more

namespace Store

variable {s : Store} {v w value : Value} {a : Nat} {cell : Cell}

/-- Every container holds only containers made before it. -/
def Ordered (s : Store) : Prop :=
  ∀ inner outer, s.Inside inner outer → inner < outer

/-- What a container holds after a write is the value written, or something it held before. -/
theorem held_after_write {place : Place} (found : (s.write place value).cells[a]? = some cell)
    (member : v ∈ cell.values) :
    v = value ∨ ∃ old, s.cells[a]? = some old ∧ v ∈ old.values := by
  cases place with
  | item b i =>
      rw [write, setItem, Array.getElem?_modify] at found
      split at found
      · obtain ⟨old, there, rfl⟩ := Option.map_eq_some_iff.1 found
        refine (?_ : v = value ∨ v ∈ old.values).imp_right fun held => ⟨old, there, held⟩
        cases old with
        | list items =>
            rw [Cell.values, Array.toList_setIfInBounds] at member
            exact (List.mem_or_eq_of_mem_set member).symm
        | dict entries => exact .inr member
      · exact .inr ⟨cell, found, member⟩
  | entry b key =>
      rw [write, setEntry, Array.getElem?_modify] at found
      split at found
      · obtain ⟨old, there, rfl⟩ := Option.map_eq_some_iff.1 found
        refine (?_ : v = value ∨ v ∈ old.values).imp_right fun held => ⟨old, there, held⟩
        cases old with
        | list items => exact .inr member
        | dict entries =>
            obtain ⟨entry, inside, rfl⟩ := List.mem_map.1 member
            rcases Dict.mem_of_mem_insert inside with old | rfl
            · exact .inr (List.mem_map_of_mem old)
            · exact .inl rfl
      · exact .inr ⟨cell, found, member⟩

/-- What a container holds after another one was made is what it held before, or what that one was
made of. -/
theorem held_after_push {more : Cell} (found : (s.cells.push more)[a]? = some cell)
    (member : v ∈ cell.values) :
    v ∈ more.values ∨ ∃ old, s.cells[a]? = some old ∧ v ∈ old.values := by
  rw [Array.getElem?_push] at found
  split at found
  · cases found
    exact .inl member
  · exact .inr ⟨cell, found, member⟩

/-- The other containers stay as they were when another one is made. -/
theorem pushed_below (cell : Cell) (there : a < s.size) :
    (s.cells.push cell)[a]? = s.cells[a]? := by
  exact (Array.getElem?_push ..).trans (if_neg (Nat.ne_of_lt there))

namespace Ordered

theorem below (ordered : s.Ordered) {cell : Cell} (found : s.cells[a]? = some cell)
    (member : v ∈ cell.values) : v.Below a :=
  fun inner held => ordered inner a ⟨cell, found, v, member, held⟩

theorem held_below (ordered : s.Ordered) {target : Value} {bound : Nat}
    (stored : target.Below (bound + 1)) (held : s.Held target v) : v.Below bound := by
  intro inner address
  obtain ⟨outer, address', inside⟩ := held.inside address
  have shallow := Nat.le_of_lt_succ (stored outer address')
  exact Nat.lt_of_lt_of_le (ordered inner outer inside) shallow

/-- No container is inside itself, at any depth. -/
theorem acyclic (ordered : s.Ordered) (a : Nat) : ¬ Relation.TransGen s.Inside a a := by
  intro round
  have lower : ∀ inner outer, Relation.TransGen s.Inside inner outer → inner < outer := by
    intro inner outer path
    induction path with
    | single step => exact ordered _ _ step
    | tail _ step ih => exact Nat.lt_trans ih (ordered _ _ step)
  exact Nat.lt_irrefl a (lower a a round)

/-- A value whose containers have low addresses nests no deeper. -/
theorem nests (ordered : s.Ordered) : ∀ {depth : Nat} {v : Value}, v.Below depth → s.Nests depth v
  | 0, _, below =>
      Option.eq_none_iff_forall_ne_some.2 fun a held => Nat.not_lt_zero a (below a held)
  | _ + 1, _, below => fun _ held => ordered.nests (ordered.held_below below held)

/-- Every stored value has a text. -/
theorem ends_render (ordered : s.Ordered) (stored : v.Below s.size) : Attempt.Ends (s.render v) :=
  (ordered.nests (stored.mono (Nat.le_succ _))).ends_render

/-- Any two stored values can be compared. -/
theorem ends_equal (ordered : s.Ordered) (left : v.Below s.size) (right : w.Below s.size) :
    Attempt.Ends (s.equal v w) := by
  have enough : s.size ≤ s.size * s.size + 1 := Nat.le_succ_of_le (Nat.le_mul_self s.size)
  exact (ordered.nests (left.mono enough)).ends_equalWithin (ordered.nests (right.mono enough))

end Ordered

/-- A store is ordered when what a container holds is below it. -/
theorem ordered_of_below
    (below : ∀ a (there : a < s.cells.size), ∀ v ∈ s.cells[a].values, v.Below a) : s.Ordered := by
  rintro inner outer ⟨cell, found, v, member, held⟩
  obtain ⟨there, rfl⟩ := Array.getElem?_eq_some_iff.1 found
  exact below outer there v member inner held

theorem ordered_empty : empty.Ordered := by
  rintro inner outer ⟨cell, found, -⟩
  simp [empty] at found

/-- A further container, made of stored values, is the youngest. -/
theorem Ordered.push (ordered : s.Ordered) {cell : Cell}
    (stored : ∀ v ∈ cell.values, v.Below s.size) : Ordered ⟨s.cells.push cell⟩ := by
  rintro inner outer ⟨other, found, v, member, held⟩
  rw [Array.getElem?_push] at found
  split at found
  · rename_i last
    cases found
    exact last ▸ stored v member inner held
  · exact ordered inner outer ⟨other, found, v, member, held⟩

end Store

end Script
