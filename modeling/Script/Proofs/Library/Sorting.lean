/-
# Script.Proofs.Library.Sorting -- the loops that sort, carried out

The loops of `sortLoop` sort as `Bubble.sort` does, in the list that they are given: the inner one
makes a round over the items (`Between.roundLoop`), the outer one as many rounds as there are
items (`Before.sortLoop`).  While they run nothing changes but the contents of that list, so the
states that they go through are written `s.withItems a items`.

What each part finds in the scopes around it is a structure: `Before` the outer loop, `Between` the
outer and the inner one, and where an iteration of the inner one `Stands`.  That two items can be
compared is all that is asked of them, `Compared`.
-/
import Script.Proofs.Eval.Execution
import Script.Proofs.Library.Bubbling
import Script.Proofs.Library.Source

namespace Script

set_option autoImplicit false

open Number (ofNat)

/-! ## One list with other contents -/

namespace Store

variable {s : Store} {a b k : Nat} {items others : List Value} {v : Value}

/-- The store with other contents in the list at `a`. -/
def withItems (s : Store) (a : Nat) (items : List Value) : Store :=
  ⟨s.cells.setIfInBounds a (.list items.toArray)⟩

theorem cells_withItems (held : s.cells[a]? = some (.list others.toArray)) :
    (s.withItems a items).cells[a]? = some (.list items.toArray) := by
  obtain ⟨inside, -⟩ := Array.getElem?_eq_some_iff.1 held
  simp [withItems, inside]

theorem cells_withItems_of_ne (other : b ≠ a) : (s.withItems a items).cells[b]? = s.cells[b]? := by
  simp [withItems, other.symm]

@[simp] theorem withItems_withItems :
    (s.withItems a items).withItems a others = s.withItems a others := by
  simp [withItems]

theorem withItems_self (held : s.cells[a]? = some (.list items.toArray)) :
    s.withItems a items = s := by
  refine congrArg Store.mk (Array.ext_getElem? fun i => ?_)
  rw [Array.getElem?_setIfInBounds]
  split
  · rename_i same
    subst same
    obtain ⟨inside, -⟩ := Array.getElem?_eq_some_iff.1 held
    rw [if_pos inside, held]
  · rfl

theorem setItem_eq (held : s.cells[a]? = some (.list items.toArray)) :
    s.setItem a k v = s.withItems a (items.set k v) := by
  refine congrArg Store.mk (Array.ext_getElem? fun i => ?_)
  rw [Array.getElem?_setIfInBounds, Array.getElem?_modify]
  split
  · rename_i same
    subst same
    obtain ⟨inside, -⟩ := Array.getElem?_eq_some_iff.1 held
    rw [if_pos inside, held]
    simp
  · rfl

theorem indexGet_of_cells (held : s.cells[a]? = some (.list items.toArray)) (small : k < 2 ^ 53)
    (there : items[k]? = some v) : s.indexGet (.list a) (.number (ofNat k)) = .ok v := by
  obtain ⟨inside, rfl⟩ := List.getElem?_eq_some_iff.1 there
  have contents : s.items a = items.toArray := by
    rw [Store.items, held]
  refine indexGet_list_eq_ok_iff.2 ⟨_, k, by simpa [contents] using inside, rfl,
    Number.value?_ofNat small, ?_⟩
  simp [contents]

theorem indexSet_of_cells (held : s.cells[a]? = some (.list items.toArray))
    (small : items.length < 2 ^ 53) (inside : k < items.length) :
    s.indexSet (.list a) (.number (ofNat k)) v = .ok (s.withItems a (items.set k v)) := by
  have contents : s.items a = items.toArray := by
    rw [Store.items, held]
  refine indexSet_eq_ok_iff.2 ⟨.item a k, place_eq_ok_iff.2 (.inl ⟨a, _, k, rfl, rfl,
    Number.value?_ofNat (inside.trans small), by simpa [contents] using inside, rfl⟩), ?_⟩
  exact (setItem_eq held).symm

end Store

namespace State

variable {s : State} {a : Nat} {items others : List Value}

/-- The state with other contents in the list at `a`. -/
def withItems (s : State) (a : Nat) (items : List Value) : State :=
  { s with store := s.store.withItems a items }

@[simp] theorem withItems_withItems :
    (s.withItems a items).withItems a others = s.withItems a others := by
  simp [withItems]

theorem holding_withItems (bindings : List (String × Value)) :
    (s.holding bindings).withItems a items = (s.withItems a items).holding bindings := rfl

theorem counting_withItems (word : String) (k : Nat) :
    (s.counting word k).withItems a items = (s.withItems a items).counting word k := rfl

theorem withItems_self (held : s.store.cells[a]? = some (.list items.toArray)) :
    s.withItems a items = s := by
  rw [withItems, Store.withItems_self held]

end State

namespace Library

variable {t : FunctionTable} {list word : String} {line column : Nat} {e : Expr} {r : State}
  {a j k : Nat} {items others : List Value} {v w x y : Value} {steps : Nat}
  {below : Value → Value → Bool} {bindings : List (String × Value)}

/-- In every store an item is greater than another if that is below it. -/
def Compared (below : Value → Value → Bool) (items : List Value) : Prop :=
  ∀ v ∈ items, ∀ w ∈ items, ∀ store : Store,
    store.binary .greater v w = .ok (.value (.bool (below w v)))

/-- The variable holds the list at `a`, and that these items. -/
structure Listed (r : State) (list : String) (a : Nat) (items : List Value) : Prop where
  bound : r.scopes.lookup list = some (.list a)
  held : r.store.cells[a]? = some (.list items.toArray)
  small : items.length < 2 ^ 53

/-- Where the body of the inner loop begins: `j` is its counter. -/
structure Stands (r : State) (list : String) (a : Nat) (items : List Value) (j : Nat) : Prop
    extends Listed r list a items where
  name : list ≠ "tmp"
  counter : r.scopes.lookup "j" = some (.number (ofNat j))

namespace Stands

open Eval

theorem withItems (stands : Stands r list a items j) (same : others.length = items.length) :
    Stands (r.withItems a others) list a others j where
  name := stands.name
  bound := stands.bound
  counter := stands.counter
  held := Store.cells_withItems stands.held
  small := same ▸ stands.small

/-- A scope that holds `tmp` is in nobody's way. -/
theorem holding (stands : Stands r list a items j)
    (others : ∀ other ≠ "tmp", bindings.lookup other = none) :
    Stands (r.holding bindings) list a items j where
  name := stands.name
  bound := by
    rw [State.scopes_holding, Scopes.lookup_holding, others list stands.name]
    exact stands.bound
  counter := by
    rw [State.scopes_holding, Scopes.lookup_holding, others "j" (by decide)]
    exact stands.counter
  held := stands.held
  small := stands.small

theorem expr_counter (stands : Stands r list a items j) {p : Position} :
    expr t (.name p "j") (steps + 1) r = .done (.number (ofNat j)) r :=
  expr_name stands.counter

theorem expr_next (stands : Stands r list a items j) (inside : j < items.length) :
    expr t (plusOne line column "j") (steps + 2) r = .done (.number (ofNat (j + 1))) r := by
  have small : j + 1 < 2 ^ 53 := lt_of_le_of_lt inside stands.small
  exact expr_binary stands.expr_counter (expr_number _) (Store.binary_add_ofNat small)

theorem expr_item (stands : Stands r list a items j)
    (given : expr t e (steps + 1) r = .done (.number (ofNat k)) r) (there : items[k]? = some v) :
    expr t (itemAt list line column e) (steps + 2) r = .done v r := by
  obtain ⟨inside, -⟩ := List.getElem?_eq_some_iff.1 there
  refine expr_index (expr_name stands.bound) given ?_
  exact Store.indexGet_of_cells stands.held (inside.trans stands.small) there

theorem statement_set {value : Expr} (stands : Stands r list a items j) (inside : k < items.length)
    (given : expr t e (steps + 1) r = .done (.number (ofNat k)) r)
    (valued : expr t value (steps + 1) r = .done v r) (written : items.set k v = others) :
    statement t (setItemAt list line column e value) (steps + 3) r =
      .done .next (r.withItems a others) := by
  have stored := Store.indexSet_of_cells (v := v) stands.held stands.small inside
  rw [written] at stored
  exact statement_expr ((expr_setIndex (expr_name stands.bound) given valued).1 _ stored)

section

variable {left more : List Value}

theorem exchange (stands : Stands r list a (left ++ x :: y :: more) left.length) :
    statements t (Library.exchange list line) (steps + 7) (r.holding []) =
      .done .next ((r.withItems a (left ++ y :: x :: more)).holding [("tmp", x)]) := by
  -- The list as it was read, as it is when `y` stands in it twice, and at the end.
  let items := left ++ x :: y :: more
  have first : items[left.length]? = some x := by simp [items]
  have second : items[left.length + 1]? = some y := by simp [items]
  have once : items.set left.length y = left ++ y :: y :: more := by simp [items]
  have twice : (left ++ y :: y :: more).set (left.length + 1) x = left ++ y :: x :: more := by simp
  have inside : left.length + 1 < items.length := by simp [items]
  have before : Stands (r.holding []) list a items left.length := stands.holding fun _ _ => rfl
  have between : Stands (r.holding [("tmp", x)]) list a items left.length :=
    stands.holding fun other differs => by simp [List.lookup_cons, beq_false_of_ne differs]
  have after : Stands ((r.holding [("tmp", x)]).withItems a (left ++ y :: y :: more)) list a
      (left ++ y :: y :: more) left.length := between.withItems (by simp [items])
  have kept : ((r.holding [("tmp", x)]).withItems a (left ++ y :: y :: more)).scopes.lookup "tmp" =
      some x := by simp [State.withItems, Scopes.lookup_holding]
  refine (statements_next
    (statement_declare (before.expr_item before.expr_counter first) rfl)).trans
    ((statements_next (between.statement_set (by omega) between.expr_counter
      (between.expr_item (between.expr_next (by omega)) second) once)).trans ?_)
  refine (statements_next (after.statement_set (by simp) (after.expr_next (by simp))
    (expr_name kept) twice)).trans (statements_nil.trans ?_)
  rw [State.withItems_withItems, State.holding_withItems]

/-- Two neighbours are put in order. -/
theorem exchangeGreater (stands : Stands r list a (left ++ x :: y :: more) j)
    (place : left.length = j) (compared : Compared below (left ++ x :: y :: more)) :
    statement t (Library.exchangeGreater list line) (steps + 9) r =
      .done .next
        (r.withItems a (left ++ if below y x then y :: x :: more else x :: y :: more)) := by
  subst place
  let items := left ++ x :: y :: more
  have first : items[left.length]? = some x := by simp [items]
  have second : items[left.length + 1]? = some y := by simp [items]
  have asked : expr t (.binary ⟨line, 26⟩ .greater
      (itemAt list line 17 (.name ⟨line, 23⟩ "j")) (itemAt list line 28 (plusOne line 34 "j")))
      (steps + 8) r = .done (.bool (below y x)) r :=
    expr_binary (stands.expr_item stands.expr_counter first)
      (stands.expr_item (stands.expr_next (by simp)) second)
      (compared x (by simp) y (by simp) _)
  cases swaps : below y x with
  | true =>
      exact (statement_branch_yes asked swaps).trans (inScope_done stands.exchange)
  | false =>
      -- Nothing is written, and the list with the items it has is the list.
      rw [if_neg Bool.false_ne_true, State.withItems_self stands.held]
      exact statement_branch_none asked swaps

end

end Stands

/-! ## One round -/

/-- The items of a list after `k` steps of a round over those in front of `settled`. -/
def midRound (below : Value → Value → Bool) (x : Value) (rest settled : List Value) (k : Nat) :
    List Value :=
  (Bubble.carry below x (rest.take k)).1 ++
    (Bubble.carry below x (rest.take k)).2 :: (rest.drop k ++ settled)

section

variable {rest settled : List Value}

theorem midRound_perm (k : Nat) :
    (midRound below x rest settled k).Perm (x :: rest ++ settled) := by
  rw [midRound, List.append_cons, ← List.append_assoc]
  have parts : x :: rest = x :: rest.take k ++ rest.drop k := by simp
  rw [parts]
  exact ((Bubble.carry_perm x (rest.take k)).append_right _).append_right _

theorem midRound_length : midRound below x rest settled rest.length =
    (Bubble.carry below x rest).1 ++ (Bubble.carry below x rest).2 :: settled := by
  simp [midRound]

theorem midRound_here (inside : k < rest.length) : midRound below x rest settled k =
    (Bubble.carry below x (rest.take k)).1 ++
      (Bubble.carry below x (rest.take k)).2 :: rest[k] :: (rest.drop (k + 1) ++ settled) := by
  rw [midRound, List.drop_eq_getElem_cons inside, List.cons_append]

theorem midRound_next (inside : k < rest.length) : midRound below x rest settled (k + 1) =
    (Bubble.carry below x (rest.take k)).1 ++
      if below rest[k] (Bubble.carry below x (rest.take k)).2
      then rest[k] :: (Bubble.carry below x (rest.take k)).2 :: (rest.drop (k + 1) ++ settled)
      else (Bubble.carry below x (rest.take k)).2 :: rest[k] :: (rest.drop (k + 1) ++ settled) := by
  rw [midRound, ← List.take_concat_get' rest k inside, Bubble.carry_concat]
  split <;> simp

end

theorem Compared.of_perm (compared : Compared below items) (perm : others.Perm items) :
    Compared below others := fun v inside w inside' =>
  compared v (perm.subset inside) w (perm.subset inside')

/-- Where the inner loop begins: `n` is the size of the list, and `i` rounds are over. -/
structure Between (r : State) (list : String) (a : Nat) (items : List Value) (i : Nat) : Prop
    extends Listed r list a items where
  name : list ≠ "tmp" ∧ list ≠ "j"
  total : r.scopes.lookup "n" = some (.number (ofNat items.length))
  done : r.scopes.lookup "i" = some (.number (ofNat i))

namespace Between

open Eval

variable {i : Nat} {rest settled : List Value}

theorem stands (between : Between r list a items i) (same : others.length = items.length)
    (k : Nat) : Stands ((r.withItems a others).counting "j" k) list a others k where
  name := between.name.1
  bound := by
    rw [State.lookup_counting_of_ne _ between.name.2]
    exact between.bound
  counter := State.lookup_counting _
  held := Store.cells_withItems between.held
  small := same ▸ between.small

/-- As many pairs are looked at as there are items left, less one. -/
theorem expr_lastPair (between : Between r list a items i) (left : i < items.length) (k : Nat) :
    expr t (lastPair line column) (steps + 3) ((r.withItems a others).counting "j" k) =
      .done (.number (ofNat (items.length - i - 1))) ((r.withItems a others).counting "j" k) := by
  have total : ((r.withItems a others).counting "j" k).scopes.lookup "n" = _ :=
    (State.lookup_counting_of_ne _ (by decide)).trans between.total
  have done : ((r.withItems a others).counting "j" k).scopes.lookup "i" = _ :=
    (State.lookup_counting_of_ne _ (by decide)).trans between.done
  have small := between.small
  refine expr_binary (expr_binary (expr_name total) (expr_name done)
    (Store.binary_subtract_ofNat left.le small)) (expr_number _) ?_
  exact Store.binary_subtract_ofNat (by omega) (by omega)

/-- The inner loop is a round. -/
theorem roundLoop (between : Between r list a (x :: rest ++ settled) i)
    (left : (x :: rest).length + i = (x :: rest ++ settled).length)
    (compared : Compared below (x :: rest ++ settled)) (enough : rest.length + 16 ≤ steps) :
    statement t (Library.roundLoop list line) steps r =
      .done .next (r.withItems a
        ((Bubble.carry below x rest).1 ++ (Bubble.carry below x rest).2 :: settled)) := by
  have perm (k : Nat) : (midRound below x rest settled k).Perm (x :: rest ++ settled) :=
    midRound_perm k
  have pairs : (x :: rest ++ settled).length - i - 1 = rest.length := by
    simp only [List.length_cons] at left ⊢
    omega
  have small : rest.length < 2 ^ 53 := by
    have total := between.small
    simp only [List.length_append, List.length_cons] at total
    omega
  rw [← midRound_length]
  refine statement_count (c := 10) (fun k => r.withItems a (midRound below x rest settled k))
    (State.withItems_self between.held) small (fun k le steps enough => ?_)
    (fun k inside steps enough => ?_) (by omega)
  · obtain ⟨more, rfl⟩ := Nat.exists_eq_add_of_le' enough
    exact pairs ▸ between.expr_lastPair (by simp at left ⊢; omega) k
  · obtain ⟨more, rfl⟩ := Nat.exists_eq_add_of_le' enough
    have stands := between.stands (perm k).length_eq k
    have compared := compared.of_perm (perm k)
    have place : (Bubble.carry below x (rest.take k)).1.length = k := by
      rw [Bubble.length_carry, List.length_take_of_le inside.le]
    rw [midRound_here inside] at stands compared
    rw [midRound_here inside, midRound_next inside]
    have inner := stands.holding (fun _ _ => rfl : ∀ other ≠ "tmp", [].lookup other = none)
    have exchanged : statement t (exchangeGreater list (line + 1)) (more + 9) _ = _ :=
      inner.exchangeGreater place compared
    rw [State.holding_withItems, State.counting_withItems, State.withItems_withItems] at exchanged
    exact inScope_statement exchanged

end Between

/-! ## All rounds -/

/-- Where the outer loop begins: `n` is the size of the list. -/
structure Before (s : State) (list : String) (a : Nat) (items : List Value) : Prop
    extends Listed s list a items where
  name : list ≠ "tmp" ∧ list ≠ "j" ∧ list ≠ "i"
  total : s.scopes.lookup "n" = some (.number (ofNat items.length))

namespace Before

open Eval

variable {s : State} {i : Nat} {rest settled : List Value}

theorem between (before : Before s list a items) (same : others.length = items.length) (i : Nat) :
    Between (((s.withItems a others).counting "i" i).holding []) list a others i := by
  have inner (word : String) : (((s.withItems a others).counting "i" i).holding []).scopes.lookup
      word = ((s.withItems a others).counting "i" i).scopes.lookup word := rfl
  refine ⟨⟨?_, Store.cells_withItems before.held, same ▸ before.small⟩,
    ⟨before.name.1, before.name.2.1⟩, ?_, ?_⟩
  · exact (inner list).trans ((State.lookup_counting_of_ne _ before.name.2.2).trans before.bound)
  · rw [same]
    exact (inner "n").trans ((State.lookup_counting_of_ne _ (by decide)).trans before.total)
  · exact (inner "i").trans (State.lookup_counting _)

/-- The body of the outer loop is a round. -/
theorem inScope_roundLoop (before : Before s list a items)
    (perm : (x :: rest ++ settled).Perm items) (left : (x :: rest).length + i = items.length)
    (compared : Compared below items) (enough : items.length + 20 ≤ steps) :
    Run.inScope (statements t [roundLoop list line] steps)
        ((s.withItems a (x :: rest ++ settled)).counting "i" i) =
      .done .next ((s.withItems a
        ((Bubble.carry below x rest).1 ++ (Bubble.carry below x rest).2 :: settled)).counting "i"
          i) := by
  obtain ⟨more, rfl⟩ : ∃ more, steps = more + items.length + 18 + 2 :=
    ⟨steps - items.length - 20, by omega⟩
  have length := perm.length_eq
  have between := before.between length i
  have round : statement t (roundLoop list line) (more + items.length + 18 + 1) _ = _ :=
    between.roundLoop (by omega) (compared.of_perm perm) (by simp at left; omega)
  rw [State.holding_withItems, State.counting_withItems, State.withItems_withItems] at round
  exact inScope_statement round

/-- The outer loop sorts the list. -/
theorem sortLoop (before : Before s list a items) (compared : Compared below items)
    (enough : 2 * items.length + 30 ≤ steps) :
    statement t (Library.sortLoop list line) steps s =
      .done .next (s.withItems a (Bubble.sort below items)) := by
  let contents (i : Nat) := (Bubble.rounds below items i).1 ++ (Bubble.rounds below items i).2
  have begun : s.withItems a (contents 0) = s := by
    refine State.withItems_self ?_
    rw [show contents 0 = items from List.append_nil items]
    exact before.held
  rw [← Bubble.rounds_length items]
  refine statement_count (c := items.length + 20) (fun i => s.withItems a (contents i)) begun
    before.small (fun i le steps enough => ?_) (fun i inside steps enough => ?_) (by omega)
  · obtain ⟨more, rfl⟩ := Nat.exists_eq_add_of_le' enough
    exact expr_name ((State.lookup_counting_of_ne _ (by decide)).trans before.total)
  · have length := Bubble.length_rounds below items i
    have perm := Bubble.rounds_perm below items i
    simp only [contents, Bubble.rounds]
    generalize Bubble.rounds below items i = progress at length perm ⊢
    obtain ⟨- | ⟨x, rest⟩, settled⟩ := progress
    · simp only [List.length_nil] at length
      omega
    · dsimp only at length perm
      exact before.inScope_roundLoop perm (by omega) compared enough

end Before

end Library

end Script
