/-
# Script.Proofs.Eval.Reach -- what cannot be reached does not change

From a value a run can get at the container that it is, at what that holds, and so on.  From a
state it can get at whatever can be reached from what is bound, or from the values it is given.

A container that exists and is out of reach stays so.  What is read comes out of containers in
reach, what is made is new, and what is written goes into a container in reach; so no value that
comes up leads there, and no write goes there.  The containers out of reach are kept apart by each
operation on the store (`Store.KeepsApart`), so by everything the evaluator does
(`Eval.outOfReach`), and so they are apart at the end of any work (`Eval.spared_at_end`).
-/
import Script.Proofs.Access.Writing
import Script.Proofs.Eval.Course
import Script.Proofs.Store.Order

namespace Script

set_option autoImplicit false

namespace Store

variable {s : Store} {target index value v : Value} {a : Nat}

theorem write_item (s : Store) (b slot : Nat) (value : Value) :
    (s.write (.item b slot) value).size = s.size ∧
      ∀ a, a ≠ b → (s.write (.item b slot) value).cells[a]? = s.cells[a]? := by
  refine ⟨by simp [write, setItem, Store.size], fun a other => ?_⟩
  simp [write, setItem, Array.getElem?_modify, Ne.symm other]

theorem write_entry (s : Store) (b : Nat) (key : String) (value : Value) :
    (s.write (.entry b key) value).size = s.size ∧
      ∀ a, a ≠ b → (s.write (.entry b key) value).cells[a]? = s.cells[a]? := by
  refine ⟨by simp [write, setEntry, Store.size], fun a other => ?_⟩
  simp [write, setEntry, Array.getElem?_modify, Ne.symm other]

/-- A write changes no container but its target, and makes none. -/
theorem write_elsewhere {place : Place} (found : s.place target index = .ok place)
    (value : Value) :
    (s.write place value).size = s.size ∧
      ∀ a, target.address? ≠ some a → (s.write place value).cells[a]? = s.cells[a]? := by
  rcases place_eq_ok_iff.1 found with ⟨b, x, i, rfl, -, -, -, rfl⟩ | ⟨b, k, rfl, -, rfl⟩
  · obtain ⟨size, others⟩ := s.write_item b i value
    exact ⟨size, fun a away => others a fun same => away (same ▸ rfl)⟩
  · obtain ⟨size, others⟩ := s.write_entry b k value
    exact ⟨size, fun a away => others a fun same => away (same ▸ rfl)⟩

end Store

/-- The container at an address can be reached from one of the values, or from what is bound. -/
def State.Reaches (s : State) (values : List Value) (a : Nat) : Prop :=
  (∃ v ∈ values, s.store.Reaches v a) ∨
    ∃ scope ∈ s.scopes.toList, ∃ b ∈ scope.bindings, s.store.Reaches b.2 a

/-- What a container out of reach is inside of is out of reach too. -/
theorem State.not_reaches_of_inside {s : State} {values : List Value} {inner outer : Nat}
    (inside : s.store.Inside inner outer) (away : ¬ s.Reaches values inner) :
    ¬ s.Reaches values outer := by
  rintro (⟨v, given, reaches⟩ | ⟨scope, opened, b, bound, reaches⟩)
  · exact away (.inl ⟨v, given, reaches.of_inside inside⟩)
  · exact away (.inr ⟨scope, opened, b, bound, reaches.of_inside inside⟩)

/-- At the ending, if there is one, the container at an address is as it was in a store, and out
of reach of what is bound and of the values there. -/
def Store.Spared (s : Store) (a : Nat) (ending : Option Moment) : Prop :=
  ∀ m ∈ ending, m.state.store.cells[a]? = s.cells[a]? ∧ ¬ m.state.Reaches m.values a

/-- The value is no container that is apart. -/
def Value.Outside (apart : Nat → Prop) (v : Value) : Prop :=
  ∀ a, v.address? = some a → ¬ apart a

namespace Store

variable {s origin : Store} {target index value v : Value} {a : Nat} {cell : Cell}
  {apart : Nat → Prop}

/-- The containers that are apart are as they were to begin with, and whatever holds one is apart
too. -/
structure KeepsApart (s origin : Store) (apart : Nat → Prop) : Prop where
  there : ∀ a, apart a → a < s.size
  same : ∀ a, apart a → s.cells[a]? = origin.cells[a]?
  closed : ∀ inner outer, s.Inside inner outer → apart inner → apart outer

namespace KeepsApart

/-- Whatever holds a container that is apart, at any depth, is apart. -/
theorem of_path (kept : s.KeepsApart origin apart) {outer : Nat}
    (path : Relation.ReflTransGen s.Inside a outer) (isApart : apart a) : apart outer := by
  induction path with
  | refl => exact isApart
  | tail _ inside ih => exact kept.closed _ _ inside ih

/-- A container that is not apart holds none that is. -/
theorem outside_of_held (kept : s.KeepsApart origin apart) (outside : target.Outside apart)
    (held : s.Held target v) : v.Outside apart := by
  intro a address isApart
  rcases held with ⟨b, rfl, member⟩ | ⟨b, key, rfl, member⟩
  · obtain ⟨cell, found, inside⟩ := mem_items member
    exact outside b rfl (kept.closed a b ⟨cell, found, v, inside, address⟩ isApart)
  · obtain ⟨cell, found, inside⟩ := mem_entries member
    exact outside b rfl (kept.closed a b ⟨cell, found, v, inside, address⟩ isApart)

/-- What is made is not apart, nor is anything it is made of. -/
theorem push (kept : s.KeepsApart origin apart) (known : ∀ v ∈ cell.values, v.Outside apart) :
    KeepsApart ⟨s.cells.push cell⟩ origin apart where
  there a isApart := by
    simpa [Store.size] using Nat.lt_succ_of_lt (kept.there a isApart)
  same a isApart := (pushed_below cell (kept.there a isApart)).trans (kept.same a isApart)
  closed := by
    rintro inner outer ⟨holder, found, v, member, address⟩ isApart
    rcases held_after_push found member with new | ⟨old, there, held⟩
    · exact absurd isApart (known v new inner address)
    · exact kept.closed inner outer ⟨old, there, v, held, address⟩ isApart

/-- The next container is not apart. -/
theorem outside_of_next (kept : s.KeepsApart origin apart) {v : Value}
    (next : v.address? = some s.size) : v.Outside apart := by
  intro a address isApart
  cases next.symm.trans address
  exact Nat.lt_irrefl _ (kept.there _ isApart)

/-- What is written to is not apart, nor is the value written. -/
theorem write {place : Place} (kept : s.KeepsApart origin apart) (known : target.Outside apart)
    (new : value.Outside apart) (found : s.place target index = .ok place) :
    (s.write place value).KeepsApart origin apart := by
  obtain ⟨size, elsewhere⟩ := write_elsewhere found value
  refine ⟨fun a isApart => size ▸ kept.there a isApart, fun a isApart => ?_, ?_⟩
  · rw [elsewhere a fun held => known a held isApart]
    exact kept.same a isApart
  · rintro inner outer ⟨cell, there, v, member, address⟩ isApart
    rcases held_after_write there member with rfl | ⟨old, before, held⟩
    · exact absurd isApart (new inner address)
    · exact kept.closed inner outer ⟨old, before, v, held, address⟩ isApart

end KeepsApart

end Store

namespace Eval

/-- Containers that are apart are kept so, and no value that comes up is one of them. -/
def outOfReach (t : FunctionTable) (origin : Store) (apart : Nat → Prop) : Upkeep t where
  sound s := s.KeepsApart origin apart
  fine _ v := v.Outside apart
  grows _ _ := True
  mayWrite := True
  grows_refl _ := trivial
  grows_trans _ _ := trivial
  fine_grows _ known := known
  fine_plain plain := by
    intro a held
    rw [plain.address?] at held
    cases held
  fine_function := fun _ _ held => nomatch held
  fine_held kept outside held := kept.outside_of_held outside held
  newList kept known := ⟨kept.push known, trivial, kept.outside_of_next rfl⟩
  newDict kept known :=
    ⟨kept.push (List.forall_mem_map.2 known), trivial, kept.outside_of_next rfl⟩
  write _ kept known new found := ⟨kept.write known new found, trivial⟩
  code _ _ _ _ := trivial

variable {t : FunctionTable} {s : State} {a : Nat}

/-- Work begins with all that is apart out of its reach. -/
theorem ready_out_of_reach (t : FunctionTable) (s : State) (w : Work) :
    (outOfReach t s.store fun a => a < s.store.size ∧ ¬ s.Reaches w.given a).Ready w s where
  fine := by
    refine ⟨⟨fun a isApart => isApart.1, fun a _ => rfl, ?_⟩, ?_, ?_⟩
    · rintro inner outer inside ⟨-, away⟩
      have there : outer < s.store.size := by
        obtain ⟨cell, found, -⟩ := inside
        exact (Array.getElem?_eq_some_iff.1 found).1
      exact ⟨there, State.not_reaches_of_inside inside away⟩
    · rintro scope inside b bound a held ⟨-, away⟩
      exact away (.inr ⟨scope, inside, b, bound, a, held, .refl⟩)
    · rintro v given a held ⟨-, away⟩
      exact away (.inl ⟨v, given, a, held, .refl⟩)
  code := fun _ _ _ => trivial

/-- What is out of reach where work begins is unchanged and out of reach where it ends. -/
theorem spared_at_end (there : a < s.store.size) {w : Work} (away : ¬ s.Reaches w.given a)
    (steps : Nat) : s.store.Spared a (w.ending t steps s) := by
  intro m ended
  have ready := ready_out_of_reach t s w
  obtain ⟨-, kept, bound, atHand⟩ := Upkeep.steady steps ready m ended
  refine ⟨kept.same a ⟨there, away⟩, ?_⟩
  rintro (⟨v, given, outer, held, path⟩ | ⟨scope, inside, b, member, outer, held, path⟩)
  · exact atHand v given outer held (kept.of_path path ⟨there, away⟩)
  · exact bound scope inside b member outer held (kept.of_path path ⟨there, away⟩)

/-- **Only containers within reach can change.**  A list or dictionary that exists and cannot be
reached from what is bound in any scope has the same contents after an expression, a statement or a
block, however that ends; so it is with one that cannot be reached from the arguments either and a
call from outside.  It stays out of reach of what is bound, and of the value that comes of it. -/
theorem unreachable_unchanged (t : FunctionTable) (s : State) (a : Nat)
    (there : a < s.store.size) :
    (¬ s.Reaches [] a →
      (∀ e steps, s.store.Spared a ((expr t e steps s).moment? fun v => [v])) ∧
      (∀ st steps, s.store.Spared a ((statement t st steps s).moment? Flow.values)) ∧
      ∀ body steps, s.store.Spared a ((statements t body steps s).moment? Flow.values)) ∧
    ∀ args, ¬ s.Reaches args a → ∀ name position,
      s.store.Spared a ((callFunction t name args position s).moment? fun v => [v]) := by
  refine ⟨fun away => ⟨fun e => ?_, fun st => ?_, fun body => ?_⟩,
    fun args away name position => ?_⟩
  · exact spared_at_end (w := .expr e) there away
  · exact spared_at_end (w := .statement st) there away
  · exact spared_at_end (w := .statements body) there away
  · exact spared_at_end (w := .apply position name args) there away limit

/-- A variable has a dictionary, and nothing has the list that holds it. -/
def heldByNothing : State where
  scopes := ⟨⟨[("d", .dict 0)]⟩, []⟩
  calls := .empty
  store := ⟨#[.dict .empty, .list #[.dict 0]]⟩
  console := .ofInput (.lines [])

/-- An entry is written to the dictionary, and the list stays as it was. -/
theorem unreachable_holder_unchanged :
    let write : Expr :=
      .setIndex ⟨1, 2⟩ (.name ⟨1, 1⟩ "d") (.string ⟨1, 3⟩ "k") (.name ⟨1, 9⟩ "d")
    1 < heldByNothing.store.size ∧ ¬ heldByNothing.Reaches [] 1 ∧
      ∃ v s', expr .empty write 5 heldByNothing = .done v s' ∧
        (s'.store.entries 0).find? "k" = some (.dict 0) ∧
        s'.store.cells[1]? = some (.list #[.dict 0]) ∧ ¬ s'.Reaches [v] 1 := by
  intro write
  have there : 1 < heldByNothing.store.size := by decide
  have nowhere : ∀ outer, ¬ heldByNothing.store.Inside 1 outer := by
    rintro outer ⟨cell, found, v, member, held⟩
    match outer with
    | 0 => cases found; cases member
    | 1 =>
        cases found
        cases List.mem_singleton.1 member
        cases held
    | _ + 2 => cases found
  have away : ¬ heldByNothing.Reaches [] 1 := by
    rintro (⟨v, given, -⟩ | ⟨scope, opened, b, bound, outer, held, path⟩)
    · cases given
    · cases List.mem_singleton.1 opened
      cases List.mem_singleton.1 bound
      cases held
      rcases path.cases_head with same | ⟨mid, inside, -⟩
      · cases same
      · exact nowhere mid inside
  obtain ⟨same, apart⟩ :=
    ((unreachable_unchanged .empty heldByNothing 1 there).1 away).1 write 5 _ rfl
  refine ⟨there, away, _, _, rfl, ?_, same, apart⟩
  have d : heldByNothing.store.cells[0]? = some (.dict .empty) := rfl
  change ((heldByNothing.store.setEntry 0 "k" (.dict 0)).entries 0).find? "k" = some (.dict 0)
  rw [Store.entries_setEntry d, if_pos rfl, Dict.find?_insert, if_pos rfl]

end Eval

end Script
