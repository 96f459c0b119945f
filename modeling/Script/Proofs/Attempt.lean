/-
# Script.Proofs.Attempt -- operations on values, one after the other

`Ends` says that an operation gives a result, and `Heeds` that it does what another
does unless it stops the run dead.  Both hold of a sequence when they hold of its parts,
and so of a list of operations.
-/
import Script.Attempt

namespace Script.Attempt

set_option autoImplicit false

variable {α β : Type}

/-- A sequence gives a result when its parts do. -/
theorem bind_eq_ok {x : Attempt α} {f : α → Attempt β} {b : β} :
    x >>= f = .ok b ↔ ∃ a, x = .ok a ∧ f a = .ok b := by
  cases x with
  | ok a =>
      refine ⟨fun given => ⟨a, rfl, given⟩, ?_⟩
      rintro ⟨a, ⟨⟩, given⟩
      exact given
  | error halt =>
      refine ⟨nofun, ?_⟩
      rintro ⟨a, ⟨⟩, -⟩

/-- What ends in a fault gives no result. -/
theorem bind_fail_ne_ok {x : Attempt α} {cause : α → Fault} {b : β} :
    (x >>= fun a => fail (cause a)) ≠ .ok b := by
  intro given
  obtain ⟨a, -, impossible⟩ := bind_eq_ok.1 given
  cases impossible

/-- The operation gives a result. -/
def Ends (x : Attempt α) : Prop :=
  ∃ a, x = .ok a

theorem ends_ok (a : α) : Ends (.ok a) :=
  ⟨a, rfl⟩

theorem Ends.bind {x : Attempt α} {f : α → Attempt β} (first : Ends x)
    (second : ∀ a, Ends (f a)) : Ends (x >>= f) := by
  obtain ⟨a, rfl⟩ := first
  exact second a

theorem ends_mapM {f : α → Attempt β} :
    ∀ {items : List α}, (∀ item ∈ items, Ends (f item)) → Ends (items.mapM f)
  | [], _ => ends_ok []
  | item :: items, all => by
      obtain ⟨first, others⟩ := List.forall_mem_cons.1 all
      rw [List.mapM_cons]
      exact first.bind fun b => (ends_mapM others).bind fun bs => ends_ok (b :: bs)

theorem ends_allM {p : α → Attempt Bool} :
    ∀ {items : List α}, (∀ item ∈ items, Ends (p item)) → Ends (items.allM p)
  | [], _ => ends_ok true
  | item :: items, all => by
      obtain ⟨first, others⟩ := List.forall_mem_cons.1 all
      refine first.bind fun holds => ?_
      cases holds with
      | true => exact ends_allM others
      | false => exact ends_ok false

/-- Only what a test does on the items matters. -/
theorem allM_congr {p q : α → Attempt Bool} :
    ∀ {items : List α}, (∀ item ∈ items, p item = q item) → items.allM p = items.allM q
  | [], _ => rfl
  | item :: items, same => by
      obtain ⟨first, others⟩ := List.forall_mem_cons.1 same
      rw [List.allM, List.allM, first, allM_congr others]

/-- A test passes on all items when it passes on each. -/
theorem allM_eq_true_iff {p : α → Attempt Bool} :
    ∀ {items : List α}, items.allM p = .ok true ↔ ∀ item ∈ items, p item = .ok true
  | [] => ⟨fun _ _ member => absurd member List.not_mem_nil, fun _ => rfl⟩
  | item :: items => by
      rw [List.forall_mem_cons, List.allM, bind_eq_ok, ← allM_eq_true_iff]
      constructor
      · rintro ⟨holds, first, others⟩
        cases holds with
        | true => exact ⟨first, others⟩
        | false => cases others
      · rintro ⟨first, others⟩
        exact ⟨true, first, others⟩

/-- Unless it stops the run dead, the first operation does what the second does. -/
def Heeds (x y : Attempt α) : Prop :=
  x ≠ .error .aborted → x = y

theorem Heeds.refl (x : Attempt α) : Heeds x x :=
  fun _ => rfl

theorem heeds_aborted (y : Attempt α) : Heeds (.error .aborted) y :=
  fun alive => absurd rfl alive

theorem Heeds.bind {x y : Attempt α} {f g : α → Attempt β} (first : Heeds x y)
    (second : ∀ a, Heeds (f a) (g a)) : Heeds (x >>= f) (y >>= g) := by
  intro alive
  cases x with
  | ok a =>
      obtain rfl := first (by simp)
      exact second a alive
  | error halt =>
      have halted : (Except.error halt : Attempt α) ≠ .error .aborted := by
        rintro ⟨⟩
        exact alive rfl
      rw [← first halted]
      rfl

theorem heeds_mapM {f g : α → Attempt β} (same : ∀ item, Heeds (f item) (g item)) :
    ∀ items : List α, Heeds (items.mapM f) (items.mapM g)
  | [] => .refl _
  | item :: items => by
      rw [List.mapM_cons, List.mapM_cons]
      exact (same item).bind fun b => (heeds_mapM same items).bind fun bs => .refl _

end Script.Attempt
