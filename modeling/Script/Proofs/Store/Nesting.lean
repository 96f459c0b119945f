/-
# Script.Proofs.Store.Nesting -- what containers hold, and how deep

A container may hold others, and those further ones (`Inside`, `Held`).  A value nests at most so
deep (`Nests`) when no chain of containers from it, each inside the one before, is longer.  Such a
value has a text, and any two of them can be compared, within that depth
(`Nests.ends_renderWithin`, `Nests.ends_equalWithin`), and more depth changes nothing
(`Nests.equalWithin_eq`).

A value is `Loopless` when no container that it is or holds, at any depth, holds itself.  Then
going inside leaves ever fewer containers to go to (`inner_lt`), so the value nests no deeper than
there are containers (`Loopless.nests`).  `Acyclic` says the same of addresses, whatever kind of
container is where the value takes it to be; such a value is loopless.
-/
import Mathlib.Data.Finset.Card
import Mathlib.Logic.Relation
import Script.Proofs.Attempt
import Script.Store.Equality
import Script.Store.Render

namespace Script

set_option autoImplicit false

namespace Store

variable {s : Store} {target v w : Value} {a : Nat} {depth : Nat}

/-- The container at `outer` holds the one at `inner`. -/
def Inside (s : Store) (inner outer : Nat) : Prop :=
  ∃ cell, s.cells[outer]? = some cell ∧ ∃ v ∈ cell.values, v.address? = some inner

/-- The target is a container, and the value stands in it. -/
def Held (s : Store) (target v : Value) : Prop :=
  (∃ a, target = .list a ∧ v ∈ (s.items a).toList) ∨
    ∃ a key, target = .dict a ∧ (key, v) ∈ (s.entries a).toList

/-- The value is the container at an address, or holds it at some depth. -/
def Reaches (s : Store) (v : Value) (a : Nat) : Prop :=
  ∃ outer, v.address? = some outer ∧ Relation.ReflTransGen s.Inside a outer

/-- No container that the value is, or holds at some depth, is inside itself at any depth. -/
def Acyclic (s : Store) (v : Value) : Prop :=
  ∀ a, s.Reaches v a → ¬ Relation.TransGen s.Inside a a

/-- Nothing that the value is, or holds at some depth, holds itself at any depth. -/
def Loopless (s : Store) (v : Value) : Prop :=
  ∀ w, Relation.ReflTransGen s.Held v w → ¬ Relation.TransGen s.Held w w

/-- The containers of the value stand inside one another, at most so many. -/
def Nests (s : Store) : Nat → Value → Prop
  | 0, v => v.address? = none
  | depth + 1, v => ∀ w, s.Held v w → s.Nests depth w

/-! ## One step inside -/

/-- A list that holds something is stored. -/
theorem list_of_mem_items (member : v ∈ (s.items a).toList) :
    s.cells[a]? = some (.list (s.items a)) := by
  unfold items at member ⊢
  split at member
  · rename_i items found
    simp only [found]
  · cases member

/-- A dictionary that holds something is stored. -/
theorem dict_of_mem_entries {entry : String × Value} (member : entry ∈ (s.entries a).toList) :
    s.cells[a]? = some (.dict (s.entries a)) := by
  unfold entries at member ⊢
  split at member
  · rename_i entries found
    simp only [found]
  · cases member

/-- What a list holds, its cell holds. -/
theorem mem_items (member : v ∈ (s.items a).toList) :
    ∃ cell, s.cells[a]? = some cell ∧ v ∈ cell.values :=
  ⟨_, list_of_mem_items member, member⟩

theorem mem_entries {entry : String × Value} (member : entry ∈ (s.entries a).toList) :
    ∃ cell, s.cells[a]? = some cell ∧ entry.2 ∈ cell.values :=
  ⟨_, dict_of_mem_entries member, List.mem_map.2 ⟨entry, member, rfl⟩⟩

theorem held_item {i : Nat} (found : (s.items a)[i]? = some v) : s.Held (.list a) v :=
  .inl ⟨a, rfl, List.mem_iff_getElem?.2 ⟨i, by rwa [Array.getElem?_toList]⟩⟩

theorem held_entry {key : String} (found : (s.entries a).find? key = some v) : s.Held (.dict a) v :=
  .inr ⟨a, key, rfl, Dict.find?_eq_some_iff.1 found⟩

/-- A held container is inside the one that holds it. -/
theorem Held.inside (held : s.Held v w) {inner : Nat} (address : w.address? = some inner) :
    ∃ outer, v.address? = some outer ∧ s.Inside inner outer := by
  rcases held with ⟨a, rfl, member⟩ | ⟨a, key, rfl, member⟩
  · obtain ⟨cell, found, inside⟩ := mem_items member
    exact ⟨a, rfl, cell, found, w, inside, address⟩
  · obtain ⟨cell, found, inside⟩ := mem_entries member
    exact ⟨a, rfl, cell, found, w, inside, address⟩

/-- What holds something is stored. -/
theorem Held.stored (held : s.Held v w) : ∃ a, v.address? = some a ∧ a < s.size := by
  rcases held with ⟨a, rfl, member⟩ | ⟨a, key, rfl, member⟩
  · exact ⟨a, rfl, (Array.getElem?_eq_some_iff.1 (list_of_mem_items member)).1⟩
  · exact ⟨a, rfl, (Array.getElem?_eq_some_iff.1 (dict_of_mem_entries member)).1⟩

/-- What is inside a container that a value reaches, the value reaches. -/
theorem Reaches.of_inside {inner outer : Nat} (inside : s.Inside inner outer) :
    s.Reaches v outer → s.Reaches v inner :=
  fun ⟨top, held, path⟩ => ⟨top, held, .head inside path⟩

/-- What a held value reaches, its holder reaches. -/
theorem Reaches.of_held (held : s.Held v w) : s.Reaches w a → s.Reaches v a := by
  rintro ⟨inner, address, path⟩
  obtain ⟨outer, address', inside⟩ := held.inside address
  exact ⟨outer, address', path.tail inside⟩

theorem Acyclic.of_address? (plain : v.address? = none) : s.Acyclic v := by
  rintro a ⟨outer, address, -⟩
  rw [plain] at address
  cases address

theorem Acyclic.of_held (acyclic : s.Acyclic v) (held : s.Held v w) : s.Acyclic w :=
  fun a reaches => acyclic a (reaches.of_held held)

/-! ## Values that nest so deep -/

namespace Nests

theorem item (nests : s.Nests (depth + 1) (.list a)) (member : v ∈ (s.items a).toList) :
    s.Nests depth v :=
  nests v (.inl ⟨a, rfl, member⟩)

theorem entry (nests : s.Nests (depth + 1) (.dict a)) {entry : String × Value}
    (member : entry ∈ (s.entries a).toList) : s.Nests depth entry.2 :=
  nests entry.2 (.inr ⟨a, entry.1, rfl, member⟩)

/-- What is no container holds nothing. -/
theorem not_held (nests : s.Nests 0 v) : ¬ s.Held v w := by
  rintro (⟨a, rfl, -⟩ | ⟨a, key, rfl, -⟩) <;> cases nests

theorem mono : ∀ {depth more : Nat} {v : Value}, s.Nests depth v → depth ≤ more → s.Nests more v
  | 0, 0, _, nests, _ => nests
  | 0, _ + 1, _, nests, _ => fun _ held => absurd held nests.not_held
  | _ + 1, _ + 1, _, nests, le => fun w held => (nests w held).mono (Nat.le_of_succ_le_succ le)

/-- A value that nests so deep is rendered within that depth. -/
theorem ends_renderWithin :
    ∀ {depth : Nat} {v : Value}, s.Nests depth v → Attempt.Ends (s.renderWithin none depth v) := by
  intro depth
  induction depth with
  | zero =>
      intro v nests
      cases v with
      | list a | dict a => cases nests
      | _ => exact Attempt.ends_ok _
  | succ depth ih =>
      intro v nests
      cases v with
      | list a =>
          simp only [renderWithin, reduceCtorEq, if_false]
          refine (Attempt.ends_mapM fun item member => ?_).bind fun items => Attempt.ends_ok _
          exact ih (nests.item member)
      | dict a =>
          simp only [renderWithin]
          refine (Attempt.ends_mapM fun entry member => ?_).bind fun entries => Attempt.ends_ok _
          exact (ih (nests.entry member)).bind fun text => Attempt.ends_ok _
      | _ => exact Attempt.ends_ok _

/-- Two values that nest so deep are compared within that depth.  The sides change places where
dictionaries are entered, so the bound is one for both. -/
theorem ends_equalWithin :
    ∀ {depth : Nat} {v w : Value}, s.Nests depth v → s.Nests depth w →
      Attempt.Ends (s.equalWithin depth v w) := by
  intro depth
  induction depth with
  | zero =>
      intro v w left right
      cases v <;> cases w <;> first
        | exact Attempt.ends_ok _
        | cases left
  | succ depth ih =>
      intro v w left right
      cases v <;> cases w
      case list.list a b =>
        simp only [equalWithin]
        split
        · exact Attempt.ends_ok _
        split
        · refine Attempt.ends_allM fun pair member => ?_
          obtain ⟨first, second⟩ := List.of_mem_zip member
          exact ih (left.item first) (right.item second)
        · exact Attempt.ends_ok _
      case dict.dict a b =>
        simp only [equalWithin]
        split
        · exact Attempt.ends_ok _
        split
        · refine Attempt.ends_allM fun entry member => ?_
          split
          · rename_i value found
            have other : (entry.1, value) ∈ (s.entries b).toList := Dict.find?_eq_some_iff.1 found
            exact ih (right.entry other) (left.entry member)
          · exact Attempt.ends_ok _
        · exact Attempt.ends_ok _
      all_goals exact Attempt.ends_ok _

/-- More depth than two values nest changes nothing about their comparison. -/
theorem equalWithin_eq :
    ∀ {depth more : Nat} {v w : Value}, s.Nests depth v → s.Nests depth w → depth ≤ more →
      s.equalWithin more v w = s.equalWithin depth v w := by
  intro depth
  induction depth with
  | zero =>
      intro more v w left right _
      cases v <;> cases left <;> cases more <;> cases w <;> rfl
  | succ depth ih =>
      intro more v w left right le
      obtain ⟨more, rfl⟩ := Nat.exists_eq_add_one_of_ne_zero (Nat.ne_zero_of_lt le)
      have less := Nat.le_of_succ_le_succ le
      cases v <;> cases w
      case list.list a b =>
        simp only [equalWithin]
        refine if_congr .rfl rfl (if_congr .rfl (Attempt.allM_congr fun pair member => ?_) rfl)
        obtain ⟨first, second⟩ := List.of_mem_zip member
        exact ih (left.item first) (right.item second) less
      case dict.dict a b =>
        simp only [equalWithin]
        refine if_congr .rfl rfl (if_congr .rfl (Attempt.allM_congr fun entry member => ?_) rfl)
        split
        · rename_i value found
          have other : (entry.1, value) ∈ (s.entries b).toList := Dict.find?_eq_some_iff.1 found
          exact ih (right.entry other) (left.entry member) less
        · rfl
      all_goals rfl

/-- A value that nests no deeper than there are containers, by one, has a text. -/
theorem ends_render (nests : s.Nests (s.size + 1) v) : Attempt.Ends (s.render v) :=
  nests.ends_renderWithin

end Nests

/-! ## Loopless values -/

/-- What holds something is the container at its address. -/
theorem Held.eq_of_address? {u x : Value} (held : s.Held u x) (held' : s.Held v w)
    (same : u.address? = v.address?) : u = v := by
  rcases held with ⟨a, rfl, member⟩ | ⟨a, key, rfl, member⟩ <;>
    rcases held' with ⟨b, rfl, member'⟩ | ⟨b, key', rfl, member'⟩ <;> cases same
  · rfl
  · cases (list_of_mem_items member).symm.trans (dict_of_mem_entries member')
  · cases (dict_of_mem_entries member).symm.trans (list_of_mem_items member')
  · rfl

theorem Loopless.of_held (loopless : s.Loopless v) (held : s.Held v w) : s.Loopless w :=
  fun u path => loopless u (path.head held)

open Classical in
/-- The containers holding something that are the value, or inside it at some depth. -/
noncomputable def inner (s : Store) (v : Value) : Finset Nat :=
  {b ∈ Finset.range s.size |
    ∃ w x, Relation.ReflTransGen s.Held v w ∧ s.Held w x ∧ w.address? = some b}

/-- Inside a container that does not hold itself there are fewer containers than it is with. -/
theorem inner_lt (held : s.Held v w) (apart : ¬ Relation.TransGen s.Held v v) :
    (s.inner w).card < (s.inner v).card := by
  classical
  obtain ⟨a, address, there⟩ := held.stored
  refine Finset.card_lt_card ⟨fun b member => ?_, fun all => ?_⟩
  · obtain ⟨stored, u, x, path, holds, place⟩ := Finset.mem_filter.1 member
    exact Finset.mem_filter.2 ⟨stored, u, x, path.head held, holds, place⟩
  · have own : a ∈ s.inner v :=
      Finset.mem_filter.2 ⟨Finset.mem_range.2 there, v, w, .refl, held, address⟩
    obtain ⟨-, u, x, path, holds, place⟩ := Finset.mem_filter.1 (all own)
    obtain rfl := holds.eq_of_address? held (place.trans address.symm)
    exact apart (.head' held path)

theorem card_inner_le (s : Store) (v : Value) : (s.inner v).card ≤ s.size := by
  classical
  exact (Finset.card_filter_le _ _).trans (Finset.card_range s.size).le

/-- Loopless values nest less deep than there are containers in them. -/
theorem Loopless.nests_of_lt :
    ∀ {depth : Nat} {v : Value}, s.Loopless v →
      (v.address? ≠ none → (s.inner v).card < depth) → s.Nests depth v := by
  intro depth
  induction depth with
  | zero =>
      intro v _ few
      by_contra container
      exact Nat.not_lt_zero _ (few container)
  | succ depth ih =>
      intro v loopless few w held
      refine ih (loopless.of_held held) fun _ => ?_
      obtain ⟨a, address, -⟩ := held.stored
      have most := few (by simp [address])
      exact Nat.lt_of_lt_of_le (inner_lt held (loopless v .refl)) (Nat.le_of_lt_succ most)

/-- Loopless values nest no deeper than there are containers. -/
theorem Loopless.nests (loopless : s.Loopless v) : s.Nests (s.size + 1) v :=
  loopless.nests_of_lt fun _ => Nat.lt_succ_of_le (s.card_inner_le v)

/-! ## Acyclic values -/

/-- A chain of values, each held by the one before, is one of containers inside each other. -/
theorem inside_of_chain {inner : Nat} (chain : Relation.TransGen s.Held v w)
    (address : w.address? = some inner) :
    ∃ outer, v.address? = some outer ∧ Relation.TransGen s.Inside inner outer := by
  induction chain using Relation.TransGen.head_induction_on with
  | single held =>
      obtain ⟨outer, address', inside⟩ := held.inside address
      exact ⟨outer, address', .single inside⟩
  | head held _ ih =>
      obtain ⟨between, address', path⟩ := ih
      obtain ⟨outer, address'', inside⟩ := held.inside address'
      exact ⟨outer, address'', path.tail inside⟩

theorem Acyclic.loopless (acyclic : s.Acyclic v) : s.Loopless v := by
  intro w path
  have inside : s.Acyclic w := by
    induction path with
    | refl => exact acyclic
    | tail _ held inside => exact inside.of_held held
  intro round
  obtain ⟨x, held, -⟩ := Relation.TransGen.head'_iff.1 round
  obtain ⟨a, address, -⟩ := held.stored
  obtain ⟨outer, address', chain⟩ := inside_of_chain round address
  cases address.symm.trans address'
  exact inside a ⟨a, address, .refl⟩ chain

/-- Acyclic values nest no deeper than there are containers. -/
theorem Acyclic.nests (acyclic : s.Acyclic v) : s.Nests (s.size + 1) v :=
  acyclic.loopless.nests

/-- What passes from the values that an acyclic value holds to it, holds of all acyclic values. -/
theorem Acyclic.induction {P : Value → Prop}
    (step : ∀ v, s.Acyclic v → (∀ w, s.Held v w → P w) → P v) (acyclic : s.Acyclic v) : P v := by
  have deep : ∀ depth v, s.Acyclic v → s.Nests depth v → P v := by
    intro depth
    induction depth with
    | zero =>
        intro v acyclic nests
        exact step v acyclic fun w held => absurd held nests.not_held
    | succ depth ih =>
        intro v acyclic nests
        exact step v acyclic fun w held => ih w (acyclic.of_held held) (nests w held)
  exact deep _ v acyclic acyclic.nests

end Store

end Script
