/-
# Script.Proofs.Library.Sort -- the function that sorts a list sorts it

Numbers are in one order, not-a-number aside, and so are texts: items that are all the one or all
the other can be sorted (`Orderly`).  What `<` says of them is the same in every store, so it does
not matter that the store changes while they are sorted.

The function `sort` of module `std` binds the size of its list and runs the loops of `sortLoop`.
The main statement is `sort_sorts`: the list holds what it held, in the stable order, and nothing
else in the state is another.
-/
import Script.Proofs.Library.Sorting

namespace Script

set_option autoImplicit false

open Number (ofNat)

/-! ## Items that can be sorted -/

namespace Store.OneOrder

variable {s : Store} {values : Set Value}

theorem asymmetric (order : s.OneOrder values) (v w : values) (up : s.Affirms .less v w) :
    ¬ s.Affirms .less w v := fun down =>
  order.irreflexive v (order.transitive v w v up down)

/-- What is not less than something in between is not less than what that is not less than. -/
theorem through (order : s.OneOrder values) (u v w : values) (left : ¬ s.Affirms .less u v)
    (right : ¬ s.Affirms .less v w) : ¬ s.Affirms .less u w := by
  intro up
  have first : ¬ s.Affirms .less v u := fun down => right (order.transitive v u w down up)
  have second : ¬ s.Affirms .less w v := fun down => left (order.transitive u w v up down)
  rw [← order.greater_iff] at first second
  exact (order.level.trans ⟨left, first⟩ ⟨right, second⟩).1 up

end Store.OneOrder

/-- All items are numbers other than not-a-number, or all are texts. -/
def Orderly (items : List Value) : Prop :=
  (∀ v ∈ items, ∃ x : Float, v = .number x ∧ x.isNaN = false) ∨
    ∀ v ∈ items, ∃ text, v = .string text

/-- What `<` says of values that are numbers or texts, in whichever store. -/
def Value.less (v w : Value) : Bool :=
  match Store.empty.binary .less v w with
  | .ok (.value (.bool b)) => b
  | _ => false

namespace Orderly

variable {items : List Value} {v w : Value} {op : BinaryOp}

theorem oneOrder (orderly : Orderly items) (s : Store) : s.OneOrder {v | v ∈ items} := by
  rcases orderly with numbers | texts
  · refine Store.oneOrder_of_coercible (fun v inside => ?_) fun v inside => ?_
    · obtain ⟨x, rfl, number⟩ := numbers v inside
      exact number
    · obtain ⟨x, rfl, -⟩ := numbers v inside
      exact .inl ⟨x, rfl⟩
  · exact Store.oneOrder_of_strings texts

/-- Comparing the items does not look into the store. -/
theorem binary_eq (orderly : Orderly items) (first : v ∈ items) (second : w ∈ items)
    (compares : op.Compares) (s s' : Store) : s.binary op v w = s'.binary op v w := by
  rcases orderly with numbers | texts
  · obtain ⟨x, rfl, -⟩ := numbers v first
    obtain ⟨y, rfl, -⟩ := numbers w second
    rw [Store.binary_of_coerce compares rfl rfl, Store.binary_of_coerce compares rfl rfl]
  · obtain ⟨x, rfl⟩ := texts v first
    obtain ⟨y, rfl⟩ := texts w second
    rw [Store.binary_strings compares, Store.binary_strings compares]

theorem binary_less (orderly : Orderly items) (first : v ∈ items) (second : w ∈ items)
    (s : Store) : s.binary .less v w = .ok (.value (.bool (v.less w))) := by
  rw [orderly.binary_eq first second .less s Store.empty]
  obtain ⟨b, answer⟩ := (orderly.oneOrder Store.empty).answers ⟨v, first⟩ ⟨w, second⟩ .less .less
  simp only [Value.less, answer]

theorem affirms_iff (orderly : Orderly items) (first : v ∈ items) (second : w ∈ items)
    (s : Store) : s.Affirms .less v w ↔ v.less w = true := by
  rw [Store.Affirms, orderly.binary_less first second]
  simp

theorem compared (orderly : Orderly items) : Library.Compared Value.less items := by
  intro v first w second s
  have order := orderly.oneOrder s
  obtain ⟨b, answer⟩ := order.answers ⟨v, first⟩ ⟨w, second⟩ .greater .greater
  have other := order.greater_iff ⟨v, first⟩ ⟨w, second⟩
  dsimp only at answer other
  rw [orderly.affirms_iff second first, Store.Affirms, answer] at other
  have same : b = w.less v := Bool.eq_iff_iff.2 (by simpa using other)
  rw [answer, same]

theorem ordersAll (orderly : Orderly items) : OrdersAll Value.less items := by
  have order := orderly.oneOrder Store.empty
  have less_iff : ∀ v ∈ items, ∀ w ∈ items, (v.less w = false ↔ ¬ Store.empty.Affirms .less v w) :=
    fun v first w second => by rw [orderly.affirms_iff first second, Bool.not_eq_true]
  constructor
  · intro v first w second up
    rw [less_iff w second v first]
    exact order.asymmetric ⟨v, first⟩ ⟨w, second⟩ ((orderly.affirms_iff first second _).2 up)
  · intro u first v second w third
    rw [less_iff u first v second, less_iff v second w third, less_iff u first w third]
    exact order.through ⟨u, first⟩ ⟨v, second⟩ ⟨w, third⟩

/-- There is one stable order of the items, and sorting gives it. -/
theorem stablySorted_iff (orderly : Orderly items) (s : Store) (others : List Value) :
    StablySorted (s.Affirms .less) items others ↔ others = Bubble.sort Value.less items := by
  have sorted := (Bubble.stablySorted_sort orderly.ordersAll).congr fun v first w second =>
    (orderly.affirms_iff first second s).symm
  have asymmetric : ∀ v ∈ items, ∀ w ∈ items, s.Affirms .less v w → ¬ s.Affirms .less w v :=
    fun v first w second => (orderly.oneOrder s).asymmetric ⟨v, first⟩ ⟨w, second⟩
  exact ⟨fun given => sorted.unique asymmetric given, fun same => same ▸ sorted⟩

end Orderly

/-! ## The call -/

namespace Library

open Eval

variable {t : FunctionTable} {name : String} {p : Position} {s : State} {a : Nat}
  {items : List Value} {steps : Nat}

/-- What the body does in the scope of the call. -/
theorem statements_sort {c : State} (unshadowed : c.scopes.target "size" = "size")
    (held : c.store.cells[a]? = some (.list items.toArray)) (small : items.length < 2 ^ 53)
    (orderly : Orderly items) (enough : 2 * items.length + 40 ≤ steps) :
    statements t sort.body steps (c.holding [("items", .list a)]) =
      .done (.returned (.list a)) ((c.withItems a (Bubble.sort Value.less items)).holding
        [("items", .list a), ("n", .number (ofNat items.length))]) := by
  obtain ⟨more, rfl⟩ : ∃ more, steps = more + 2 * items.length + 30 + 10 :=
    ⟨steps - 2 * items.length - 40, by omega⟩
  have own (bindings : List (String × Value)) :
      (c.holding (("items", .list a) :: bindings)).scopes.lookup "items" = some (.list a) := rfl
  have visible : (c.holding [("items", .list a)]).scopes.target "size" = "size" := unshadowed
  have sized : c.store.sizeOf (.list a) = .ok items.length := by
    rw [Store.sizeOf, Store.items, held]
    rfl
  have before : Before (c.holding [("items", .list a), ("n", .number (ofNat items.length))])
      "items" a items :=
    ⟨⟨own _, held, small⟩, by decide, rfl⟩
  refine (statements_next (statement_declare (expr_size visible (expr_name (own _)) sized)
    rfl)).trans ((statements_next (before.sortLoop orderly.compared (by omega))).trans ?_)
  exact statements_returned (statement_return (expr_name (own _)))

theorem apply_sort (called : t.find? name = some sort) (plain : Intrinsic.ofName? name = none)
    (unshadowed : s.scopes.target "size" = "size")
    (held : s.store.cells[a]? = some (.list items.toArray)) (small : items.length < 2 ^ 53)
    (orderly : Orderly items) (enough : 2 * items.length + 42 ≤ steps) :
    apply t p name [.list a] steps s =
      .done (.list a) (s.withItems a (Bubble.sort Value.less items)) := by
  obtain ⟨more, rfl⟩ : ∃ more, steps = more + 2 * items.length + 40 + 2 :=
    ⟨steps - 2 * items.length - 42, by omega⟩
  let c : State := { s with calls := s.calls.push ⟨name, p⟩ }
  have body : statements t sort.body (more + 2 * items.length + 40)
      (c.holding [("items", .list a)]) = _ :=
    statements_sort unshadowed held small orderly (by omega)
  exact apply_user plain called rfl rfl body

/-- **The function `sort` of the module that comes with the language sorts.**  Called by any name it
was imported under, where no variable hides `size`, on a list of numbers other than not-a-number or
a list of texts, it ends with that list.  This holds the items it held, in ascending order under
`<`, items that are level in their old order; and every other container, the scopes, the calls and
the console are what they were. -/
theorem sort_sorts {program : Program} {f : Function}
    (read : Program.ofText Module.standardText = .ok program)
    (bundled : program.functions.find? "sort" = some f) (called : t.find? name = some f)
    (plain : Intrinsic.ofName? name = none) (unshadowed : s.scopes.target "size" = "size")
    (held : s.store.cells[a]? = some (.list items.toArray)) (small : items.length < 2 ^ 53)
    (orderly : Orderly items) (p : Position) :
    ∃ sorted store, callFunction t name [.list a] p s = .done (.list a) { s with store } ∧
      (∀ others, StablySorted (s.store.Affirms .less) items others ↔ others = sorted) ∧
      store.cells[a]? = some (.list sorted.toArray) ∧
      ∀ b, b ≠ a → store.cells[b]? = s.store.cells[b]? := by
  obtain ⟨program', read', found⟩ := standard_sort
  obtain rfl : program' = program := Except.ok.inj (read'.symm.trans read)
  obtain rfl : f = sort := Option.some.inj (bundled.symm.trans found)
  have enough : 2 * items.length + 42 ≤ limit := by
    rw [limit]
    omega
  have ended := apply_sort (p := p) called plain unshadowed held small orderly enough
  exact ⟨Bubble.sort Value.less items, _, ended, orderly.stablySorted_iff s.store,
    Store.cells_withItems held, fun b other => Store.cells_withItems_of_ne other⟩

/-- The two zeros are level, so they stay in their order behind a number that goes in front. -/
theorem sort_of_zeros_under_another_name :
    let items : List Value := [.number 0, .number (-0.0), .number (-1)]
    let store : Store := ⟨#[.dict .empty, .list items.toArray]⟩
    let s : State := { State.start (.lines []) with store }
    ∃ program f, Program.ofText Module.standardText = .ok program ∧
      program.functions.find? "sort" = some f ∧ Intrinsic.ofName? "order" = none ∧
      s.scopes.target "size" = "size" ∧ s.store.cells[1]? = some (.list items.toArray) ∧
      Orderly items ∧
      ∃ store, callFunction ⟨[("order", f)]⟩ "order" [.list 1] .start s =
          .done (.list 1) { s with store } ∧
        store.cells[1]? = some (.list #[.number (-1), .number 0, .number (-0.0)]) ∧
        ∀ b, b ≠ 1 → store.cells[b]? = s.store.cells[b]? := by
  intro items store s
  obtain ⟨program, read, found⟩ := standard_sort
  have orderly : Orderly items := by
    refine .inl fun v inside => ?_
    simp only [items, List.mem_cons, List.not_mem_nil, or_false] at inside
    rcases inside with rfl | rfl | rfl <;> exact ⟨_, rfl, by decide +kernel⟩
  have less (x y : Float) : s.store.Affirms .less (.number x) (.number y) ↔ x < y := by
    rw [Store.Affirms, Store.binary_of_coerce .less rfl rfl]
    simp [BinaryOp.holds]
  have stable : StablySorted (s.store.Affirms .less) items
      [.number (-1), .number 0, .number (-0.0)] := by
    refine ⟨[(.number (-1), 2), (.number 0, 0), (.number (-0.0), 1)],
      (List.perm_append_singleton _ _).symm, rfl, ?_⟩
    simp only [List.pairwise_cons, List.forall_mem_cons, List.not_mem_nil, false_imp_iff,
      implies_true, and_true, List.Pairwise.nil, less]
    refine ⟨⟨.inl ?_, .inl ?_⟩, .inr ⟨?_, by decide⟩⟩ <;> decide +kernel
  have called : FunctionTable.find? ⟨[("order", sort)]⟩ "order" = some sort := rfl
  obtain ⟨sorted, store, ended, order, contents, others⟩ :=
    sort_sorts (s := s) (a := 1) read found called (by decide) rfl rfl (by decide) orderly .start
  refine ⟨program, sort, read, found, by decide, rfl, rfl, orderly, store, ended, ?_, others⟩
  rw [contents, ← (order _).1 stable]

end Library

end Script
