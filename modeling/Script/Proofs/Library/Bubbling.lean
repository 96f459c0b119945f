/-
# Script.Proofs.Library.Bubbling -- sorting by exchanging neighbours

A round goes over the items once and carries one along: where the next item is below it, the two
change places, and otherwise the next one is carried on (`Bubble.carry`).  What is carried to the
end has nothing below itself behind it, so rounds over what is left sort the items
(`Bubble.sort`).

Only an item that is above another is ever moved behind it.  So if each item is taken with its old
place, two of which neither is below the other keep the order of their places: the result is the
stable one (`Bubble.stablySorted_sort`), and there is only one (`StablySorted.unique`).
-/
import Mathlib

namespace Script

set_option autoImplicit false

variable {α β : Type}

/-- The second list holds the items of the first in ascending order, and in their old order where
none is below the other. -/
def StablySorted (below : α → α → Prop) (old new : List α) : Prop :=
  ∃ placed : List (α × Nat), placed.Perm old.zipIdx ∧ new = placed.map Prod.fst ∧
    placed.Pairwise fun v w => below v.1 w.1 ∨ ¬ below w.1 v.1 ∧ v.2 < w.2

/-- Whether one item is below another is a strict order on these items; two may be level in it. -/
structure OrdersAll (below : α → α → Bool) (items : List α) : Prop where
  asymmetric : ∀ v ∈ items, ∀ w ∈ items, below v w = true → below w v = false
  through : ∀ u ∈ items, ∀ v ∈ items, ∀ w ∈ items,
    below u v = false → below v w = false → below u w = false

namespace OrdersAll

variable {below : α → α → Bool} {items others : List α}

theorem of_subset (orders : OrdersAll below items) (subset : others ⊆ items) :
    OrdersAll below others where
  asymmetric v inside w inside' := orders.asymmetric v (subset inside) w (subset inside')
  through u inside v inside' w inside'' :=
    orders.through u (subset inside) v (subset inside') w (subset inside'')

theorem of_map {f : β → α} {items : List β} (orders : OrdersAll below (items.map f)) :
    OrdersAll (fun v w => below (f v) (f w)) items where
  asymmetric _ inside _ inside' :=
    orders.asymmetric _ (List.mem_map_of_mem inside) _ (List.mem_map_of_mem inside')
  through _ inside _ inside' _ inside'' :=
    orders.through _ (List.mem_map_of_mem inside) _ (List.mem_map_of_mem inside') _
      (List.mem_map_of_mem inside'')

theorem irreflexive (orders : OrdersAll below items) {v : α} (inside : v ∈ items) :
    below v v = false := by
  cases given : below v v with
  | false => rfl
  | true => exact (given.symm.trans (orders.asymmetric v inside v inside given))

end OrdersAll

namespace Bubble

/-- A round over the items behind `x`: the items it leaves behind, and the one it carries to the
end. -/
def carry (below : α → α → Bool) (x : α) : List α → List α × α
  | [] => ([], x)
  | y :: rest =>
      if below y x then (y :: (carry below x rest).1, (carry below x rest).2)
      else (x :: (carry below y rest).1, (carry below y rest).2)

theorem length_carry (below : α → α → Bool) (x : α) (rest : List α) :
    (carry below x rest).1.length = rest.length := by
  fun_induction carry below x rest with
  | case1 => rfl
  | case2 x y rest swaps ih => exact congrArg (· + 1) ih
  | case3 x y rest stays ih => exact congrArg (· + 1) ih

/-- Rounds until nothing is left, each over what the one before it left behind. -/
def sort (below : α → α → Bool) : List α → List α
  | [] => []
  | x :: rest => sort below (carry below x rest).1 ++ [(carry below x rest).2]
termination_by items => items.length
decreasing_by simp [length_carry]

variable {below : α → α → Bool}

theorem carry_perm (x : α) (rest : List α) :
    ((carry below x rest).1 ++ [(carry below x rest).2]).Perm (x :: rest) := by
  fun_induction carry below x rest with
  | case1 => exact .refl _
  | case2 x y rest swaps ih => exact (ih.cons y).trans (.swap x y rest)
  | case3 x y rest stays ih => exact ih.cons x

theorem sort_perm (items : List α) : (sort below items).Perm items := by
  fun_induction sort below items with
  | case1 => exact .refl _
  | case2 x rest ih => exact (ih.append_right _).trans (carry_perm x rest)

/-- A relation that items have in their order, and where the one is below the other, is kept. -/
theorem carry_pairwise {R : α → α → Prop} (ascends : ∀ v w, below v w = true → R v w) {x : α}
    {rest : List α} (pairs : (x :: rest).Pairwise R) :
    ((carry below x rest).1 ++ [(carry below x rest).2]).Pairwise R := by
  fun_induction carry below x rest with
  | case1 => exact pairs
  | case2 x y rest swaps ih =>
      obtain ⟨first, more⟩ := List.pairwise_cons.1 pairs
      obtain ⟨second, others⟩ := List.pairwise_cons.1 more
      refine List.pairwise_cons.2 ⟨fun z member => ?_, ih (List.pairwise_cons.2 ⟨?_, others⟩)⟩
      · rcases List.mem_cons.1 ((carry_perm x rest).subset member) with rfl | member
        · exact ascends y z swaps
        · exact second z member
      · exact fun z member => first z (List.mem_cons_of_mem y member)
  | case3 x y rest stays ih =>
      obtain ⟨first, more⟩ := List.pairwise_cons.1 pairs
      refine List.pairwise_cons.2 ⟨fun z member => ?_, ih more⟩
      exact first z ((carry_perm y rest).subset member)

theorem sort_pairwise {R : α → α → Prop} (ascends : ∀ v w, below v w = true → R v w)
    {items : List α} (pairs : items.Pairwise R) : (sort below items).Pairwise R := by
  fun_induction sort below items with
  | case1 => exact pairs
  | case2 x rest ih =>
      obtain ⟨left, -, last⟩ := List.pairwise_append.1 (carry_pairwise ascends pairs)
      refine List.pairwise_append.2 ⟨ih left, List.pairwise_singleton R _, ?_⟩
      exact fun v member => last v ((sort_perm _).subset member)

theorem carried_mem (x : α) (rest : List α) : (carry below x rest).2 ∈ x :: rest :=
  (carry_perm x rest).subset (List.mem_append_right _ (List.mem_singleton_self _))

/-- What a round carries to the end has nothing above itself. -/
theorem carry_greatest {x : α} {rest : List α} (orders : OrdersAll below (x :: rest)) :
    ∀ v ∈ x :: rest, below (carry below x rest).2 v = false := by
  fun_induction carry below x rest with
  | case1 x => simpa using orders.irreflexive (List.mem_singleton_self x)
  | case2 x y rest swaps ih =>
      have subset : x :: rest ⊆ x :: y :: rest := by simp
      have greatest := ih (orders.of_subset subset)
      have back : below x y = false := orders.asymmetric y (by simp) x (by simp) swaps
      intro v member
      rcases List.mem_cons.1 ((List.Perm.swap y x rest).subset member) with rfl | member
      · exact orders.through _ (subset (carried_mem x rest)) x (by simp) v (by simp)
          (greatest x (by simp)) back
      · exact greatest v member
  | case3 x y rest stays ih =>
      have subset : y :: rest ⊆ x :: y :: rest := by simp
      have greatest := ih (orders.of_subset subset)
      intro v member
      rcases List.mem_cons.1 member with rfl | member
      · exact orders.through _ (subset (carried_mem y rest)) y (by simp) v (by simp)
          (greatest y (by simp)) (by simpa using stays)
      · exact greatest v member

/-- Nothing stands behind an item that it is below. -/
theorem sort_ascending {items : List α} (orders : OrdersAll below items) :
    (sort below items).Pairwise fun v w => below w v = false := by
  fun_induction sort below items with
  | case1 => exact .nil
  | case2 x rest ih =>
      have subset : (carry below x rest).1 ⊆ x :: rest := fun v member =>
        (carry_perm x rest).subset (List.mem_append_left _ member)
      refine List.pairwise_append.2 ⟨ih (orders.of_subset subset), List.pairwise_singleton _ _, ?_⟩
      intro v member w single
      rw [List.mem_singleton.1 single]
      exact carry_greatest orders v (subset ((sort_perm _).subset member))

section

variable (f : β → α)

theorem carry_map (x : β) (rest : List β) :
    carry below (f x) (rest.map f) =
      ((carry (fun v w => below (f v) (f w)) x rest).1.map f,
        f (carry (fun v w => below (f v) (f w)) x rest).2) := by
  fun_induction carry (fun v w => below (f v) (f w)) x rest with
  | case1 => rfl
  | case2 x y rest swaps ih => simp [carry, swaps, ih]
  | case3 x y rest stays ih => simp [carry, stays, ih]

/-- Sorting looks at nothing but what it compares. -/
theorem sort_map (items : List β) :
    sort below (items.map f) = (sort (fun v w => below (f v) (f w)) items).map f := by
  fun_induction sort (fun v w => below (f v) (f w)) items with
  | case1 => simp [sort]
  | case2 x rest ih => rw [List.map_cons, sort, carry_map, ih, List.map_append, List.map_singleton]

end

/-! ## One exchange, one round -/

/-- A round that is cut short has carried the same item so far. -/
theorem carry_concat (x : α) (rest : List α) (y : α) :
    carry below x (rest ++ [y]) =
      if below y (carry below x rest).2
      then ((carry below x rest).1 ++ [y], (carry below x rest).2)
      else ((carry below x rest).1 ++ [(carry below x rest).2], y) := by
  fun_induction carry below x rest with
  | case1 x => by_cases swaps : below y x = true <;> simp [carry, swaps]
  | case2 x z rest swaps ih =>
      simp only [List.cons_append, carry, swaps, if_true, ih]
      split <;> rfl
  | case3 x z rest stays ih =>
      simp only [List.cons_append, carry, stays, Bool.false_eq_true, if_false, ih]
      split <;> rfl

/-- What so many rounds leave to be sorted, and what they have carried behind it. -/
def rounds (below : α → α → Bool) (items : List α) : Nat → List α × List α
  | 0 => (items, [])
  | k + 1 =>
      match rounds below items k with
      | ([], settled) => ([], settled)
      | (x :: rest, settled) => ((carry below x rest).1, (carry below x rest).2 :: settled)

theorem length_rounds (below : α → α → Bool) (items : List α) (k : Nat) :
    (rounds below items k).1.length = items.length - k := by
  induction k with
  | zero => rfl
  | succ k ih =>
      rw [rounds]
      generalize rounds below items k = progress at ih ⊢
      obtain ⟨- | ⟨x, rest⟩, settled⟩ := progress
      · simp only [List.length_nil] at ih ⊢
        omega
      · simp only [List.length_cons, length_carry] at ih ⊢
        omega

theorem rounds_perm (below : α → α → Bool) (items : List α) (k : Nat) :
    ((rounds below items k).1 ++ (rounds below items k).2).Perm items := by
  induction k with
  | zero => rw [rounds, List.append_nil]
  | succ k ih =>
      rw [rounds]
      generalize rounds below items k = progress at ih ⊢
      obtain ⟨- | ⟨x, rest⟩, settled⟩ := progress
      · exact ih
      · rw [List.append_cons]
        exact ((carry_perm x rest).append_right settled).trans ih

theorem sort_rounds (items : List α) (k : Nat) :
    sort below (rounds below items k).1 ++ (rounds below items k).2 = sort below items := by
  induction k with
  | zero => rw [rounds, List.append_nil]
  | succ k ih =>
      rw [rounds]
      generalize rounds below items k = progress at ih ⊢
      obtain ⟨- | ⟨x, rest⟩, settled⟩ := progress
      · exact ih
      · rw [← ih, sort, List.append_assoc]
        rfl

/-- As many rounds as there are items sort them. -/
theorem rounds_length (items : List α) :
    (rounds below items items.length).1 ++ (rounds below items items.length).2 =
      sort below items := by
  have none : (rounds below items items.length).1 = [] := by
    rw [← List.length_eq_zero_iff, length_rounds below, Nat.sub_self]
  rw [← sort_rounds items items.length, none, sort]

/-- Sorting by exchanging neighbours is stable. -/
theorem stablySorted_sort {items : List α} (orders : OrdersAll below items) :
    StablySorted (below · · = true) items (sort below items) := by
  have values : items.zipIdx.map Prod.fst = items := by simp
  let placedBelow := fun v w : α × Nat => below v.1 w.1
  refine ⟨sort placedBelow items.zipIdx, sort_perm _, ?_, ?_⟩
  · rw [← sort_map, values]
  have placed : (sort placedBelow items.zipIdx).Pairwise
      fun v w => below v.1 w.1 = true ∨ v.2 < w.2 := by
    have places : (items.zipIdx.map Prod.snd).Pairwise (· < ·) := by
      rw [List.zipIdx_map_snd]
      exact List.pairwise_lt_range'
    exact sort_pairwise (fun v w => .inl) ((List.pairwise_map.1 places).imp .inr)
  have ascending : (sort placedBelow items.zipIdx).Pairwise fun v w => below w.1 v.1 = false :=
    sort_ascending (values.symm ▸ orders).of_map
  refine (placed.and ascending).imp fun ⟨before, up⟩ => ?_
  rcases before with less | earlier
  · exact .inl less
  · exact .inr ⟨by simp [up], earlier⟩

end Bubble

namespace StablySorted

/-- Only what is below what among the items matters. -/
theorem congr {below below' : α → α → Prop} {old new : List α}
    (same : ∀ v ∈ old, ∀ w ∈ old, (below v w ↔ below' v w)) (sorted : StablySorted below old new) :
    StablySorted below' old new := by
  obtain ⟨placed, perm, rfl, pairs⟩ := sorted
  have inside : ∀ v ∈ placed, v.1 ∈ old := fun v member =>
    List.fst_mem_of_mem_zipIdx (perm.subset member)
  refine ⟨placed, perm, rfl, pairs.imp_of_mem fun first second before => ?_⟩
  rwa [← same _ (inside _ first) _ (inside _ second), ← same _ (inside _ second) _ (inside _ first)]

theorem unique {below : α → α → Prop} {old new other : List α}
    (asymmetric : ∀ v ∈ old, ∀ w ∈ old, below v w → ¬ below w v)
    (first : StablySorted below old new) (second : StablySorted below old other) :
    other = new := by
  obtain ⟨placed, perm, rfl, pairs⟩ := first
  obtain ⟨placed', perm', rfl, pairs'⟩ := second
  refine congrArg _ ((perm'.trans perm.symm).eq_of_pairwise ?_ pairs' pairs)
  intro v w inside inside' before behind
  have held : v.1 ∈ old := List.fst_mem_of_mem_zipIdx (perm'.subset inside)
  have held' : w.1 ∈ old := List.fst_mem_of_mem_zipIdx (perm.subset inside')
  rcases before with below | ⟨level, earlier⟩ <;> rcases behind with above | ⟨level', later⟩
  · exact absurd above (asymmetric _ held _ held' below)
  · exact absurd below level'
  · exact absurd above level
  · omega

end StablySorted

end Script
