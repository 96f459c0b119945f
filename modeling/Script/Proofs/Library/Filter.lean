/-
# Script.Proofs.Library.Filter -- the items for which a callback says yes

`filter` calls its callback from inside a loop, and scoping is dynamic: the callback sees the
counter and the result of `filter`, and a variable that it assigns without declaring it may be one
of them.  So `filter` is right for callbacks that leave alone what belongs to it.  What happens in a
run is told by the calls (`Asked`): each begins in a state that `filter` is in (`asking`), ends, and
leaves such a state behind (`Answers`); then the items for which a truthy value came are kept
(`filter_keeps_truthy`).  A well-scoped callback cannot do otherwise (`Answers.of_wellScoped`), but
one that counts with an `i` of its caller is called too few times (`filter_disturbed_by_counting`).
-/
import Script.Proofs.Eval.Isolation
import Script.Proofs.Library.Parts

namespace Script

set_option autoImplicit false

open Number (ofNat)

namespace Library

open Eval

variable {t : FunctionTable} {g : String} {a b b' k : Nat} {x v : Value} {c c' : State}
  {items kept gathered : List Value}

/-! ## Calls that leave `filter` alone -/

/-- What `filter` has bound: the list, the callback and the result. -/
def locals (a : Nat) (g : String) (b : Nat) : List (String × Value) :=
  [("items", .list a), ("f", .function g), ("result", .list b)]

/-- The state in which the callback is called on the item at `k`: inside the scopes of the function,
of its loop and of the body of that. -/
def asking (c : State) (a : Nat) (g : String) (b k : Nat) : State :=
  (c.holding (locals a g b)).inside [[], [("i", .number (ofNat k))]]

/-- The call on the item at `k` gives `v`, and leaves alone what belongs to `filter`: its variables,
its two lists, and the name of the function that it calls. -/
structure Answers (t : FunctionTable) (g : String) (a b k : Nat) (x v : Value) (c c' : State) :
    Prop where
  ended : Ends t ⟨218, 13⟩ g [x] (asking c a g b k) (.done v (asking c' a g b k))
  source : c'.store.cells[a]? = c.store.cells[a]?
  result : c'.store.cells[b]? = c.store.cells[b]?
  size : c'.scopes.target "size" = c.scopes.target "size"

/-- A well-scoped callback leaves the variables of `filter` alone, so its call answers if the lists
stay what they are. -/
theorem Answers.of_wellScoped {f : Function} {r : State} (own : Intrinsic.ofName? g = none)
    (known : t.find? g = some f) (well : f.WellScoped)
    (undisturbed : Undisturbed f.callees (asking c a g b k).scopes)
    (ended : Ends t ⟨218, 13⟩ g [x] (asking c a g b k) (.done v r))
    (source : r.store.cells[a]? = c.store.cells[a]?)
    (result : r.store.cells[b]? = c.store.cells[b]?) :
    Answers t g a b k x v c { r with scopes := c.scopes } := by
  obtain ⟨-, n, called⟩ := ended
  have scopes : r.scopes = (asking c a g b k).scopes :=
    scopes_apply own known well ⟨218, 13⟩ [x] n undisturbed (by rw [called]; rfl)
  have after : asking { r with scopes := c.scopes } a g b k = r :=
    (congrArg (fun scopes => { r with scopes }) scopes).symm
  exact ⟨after.symm ▸ ⟨nofun, n, called⟩, source, result, rfl⟩

/-- The callback is called once on each item, from the one at `k` on, and answers; those items are
kept for which it gives a truthy value. -/
inductive Asked (t : FunctionTable) (g : String) (a : Nat) :
    Nat → List Value → List Value → State → Nat → State → Nat → Prop
  | nil {k b : Nat} {c : State} : Asked t g a k [] [] c b c b
  | keep {k b b' : Nat} {x v : Value} {items kept : List Value} {c c₁ c' : State}
      (answers : Answers t g a b k x v c c₁) (truthy : c₁.store.truthy v = true)
      (later : Asked t g a (k + 1) items kept { c₁ with store := c₁.store.appended b x }
        (c₁.store.size + 1) c' b') :
      Asked t g a k (x :: items) (x :: kept) c b c' b'
  | drop {k b b' : Nat} {x v : Value} {items kept : List Value} {c c₁ c' : State}
      (answers : Answers t g a b k x v c c₁) (falsy : c₁.store.truthy v = false)
      (later : Asked t g a (k + 1) items kept c₁ b c' b') :
      Asked t g a k (x :: items) kept c b c' b'

/-! ## One round -/

/-- Before a call the list is there, the result holds what was kept, and `size` is the intrinsic. -/
structure Waiting (a b : Nat) (items gathered : List Value) (c : State) : Prop where
  source : c.store.cells[a]? = some (.list items.toArray)
  result : c.store.cells[b]? = some (.list gathered.toArray)
  size : c.scopes.target "size" = "size"
  small : items.length < 2 ^ 53

theorem Waiting.reading (waiting : Waiting a b items gathered c) :
    Reading (asking c a g b k) "items" "i" (.list a) items k :=
  ⟨rfl, (Store.Spells.list waiting.source).hasParts, rfl, waiting.small⟩

theorem Waiting.later (waiting : Waiting a b items gathered c)
    (answers : Answers t g a b k x v c c') : Waiting a b items gathered c' :=
  ⟨answers.source.trans waiting.source, answers.result.trans waiting.result,
    answers.size.trans waiting.size, waiting.small⟩

/-- What gives a result is there. -/
theorem callee_of_apply {p : Position} {name : String} {args : List Value} {steps : Nat}
    {s s' : State} (done : apply t p name args steps s = .done v s') :
    ∃ f, t.callee name args.length = .ok f := by
  cases steps with
  | zero => cases done
  | succ steps =>
      simp only [apply] at done
      cases found : t.callee name args.length with
      | ok f => exact ⟨f, rfl⟩
      | error fault =>
          rw [found] at done
          cases done

/-- Once the call on the item has enough steps it is done. -/
theorem Answers.expr_ask (answers : Answers t g a b k x v c c')
    (waiting : Waiting a b items gathered c) (there : items[k]? = some x) :
    ∃ n, ∀ steps, n ≤ steps →
      expr t (.call ⟨218, 13⟩ "f" [partAt "items" 218 15]) (steps + 5) (asking c a g b k) =
        .done v (asking c' a g b k) := by
  obtain ⟨-, n, called⟩ := answers.ended
  obtain ⟨f, found⟩ := callee_of_apply called
  have target : (asking c a g b k).scopes.target "f" = g := rfl
  refine ⟨n, fun steps enough => ?_⟩
  rw [← target] at found
  refine (expr_call found rfl (exprs_one (waiting.reading.expr_itemAt there))).trans ?_
  rw [target, apply_more (by omega : n ≤ steps + 4) _ g [x] _ (by simp [called]), called]

/-- The state between two rounds. -/
def between (c : State) (a : Nat) (g : String) (b k : Nat) : State :=
  (c.holding (locals a g b)).counting "i" k

/-- A round in which the item is added to the result. -/
theorem Answers.round_keep (answers : Answers t g a b k x v c c')
    (waiting : Waiting a b items gathered c) (there : items[k]? = some x)
    (truthy : c'.store.truthy v = true) :
    ∃ n, ∀ steps, n ≤ steps →
      Run.inScope (statements t addIfTruthy steps) (between c a g b k) =
        .done .next (between { c' with store := c'.store.appended b x } a g
          (c'.store.size + 1) k) := by
  obtain ⟨n, asked⟩ := answers.expr_ask waiting there
  have waiting' := waiting.later answers
  obtain ⟨inside, -⟩ := Array.getElem?_eq_some_iff.1 waiting'.result
  refine ⟨n + 10, fun steps enough => ?_⟩
  obtain ⟨more, rfl⟩ := Nat.exists_eq_add_of_le' enough
  let later : State := { c' with store := c'.store.appended b x }
  let frames : List (List (String × Value)) := [[], [], [("i", .number (ofNat k))]]
  have away : ∀ inner ∈ frames, inner.lookup "result" = none := by simp [frames]
  have own : (locals a g b).lookup "result" = some (.list b) := rfl
  have bound : ((c'.holding (locals a g b)).inside frames).scopes.lookup "result" =
      some (.list b) :=
    (Scopes.lookup_inside away _).trans (Scopes.lookup_holding_of_bound own _)
  have reading : Reading ((c'.holding (locals a g b)).inside frames) "items" "i" (.list a)
      items k :=
    (waiting'.reading (g := g)).inside
      (by simp : ∀ inner ∈ [[]], ∀ word ∈ ["items", "i"], inner.lookup word = none)
  have assigned : ((later.holding (locals a g b)).inside frames).assign "result"
      (.list (c'.store.size + 1)) =
        (later.holding (locals a g (c'.store.size + 1))).inside frames := by
    rw [State.assign_inside _ away (Scopes.lookup_holding_of_bound own _),
      State.assign_holding own]
    rfl
  have added := reading.statement_addItem (t := t) there bound inside 219 13
  exact inScope_statement ((statement_branch_yes (asked (more + n + 3) (by omega)) truthy).trans
    (inScope_statement ((added (more + n)).trans (congrArg _ assigned))))

/-- A round in which it is not. -/
theorem Answers.round_drop (answers : Answers t g a b k x v c c')
    (waiting : Waiting a b items gathered c) (there : items[k]? = some x)
    (falsy : c'.store.truthy v = false) :
    ∃ n, ∀ steps, n ≤ steps →
      Run.inScope (statements t addIfTruthy steps) (between c a g b k) =
        .done .next (between c' a g b k) := by
  obtain ⟨n, asked⟩ := answers.expr_ask waiting there
  refine ⟨n + 10, fun steps enough => ?_⟩
  obtain ⟨more, rfl⟩ := Nat.exists_eq_add_of_le' enough
  have nothing : statement t (.branch ⟨218, 9⟩ (.call ⟨218, 13⟩ "f" [partAt "items" 218 15])
      [addPart false "result" "items" 219 13] none) (more + n + 9) (asking c a g b k) =
        .done .next (asking c' a g b k) :=
    statement_branch_none (asked (more + n + 3) (by omega)) falsy
  exact inScope_statement nothing

/-! ## The loop -/

theorem Waiting.appended (waiting : Waiting a b items gathered c) (x : Value) :
    Waiting a (c.store.size + 1) items (gathered ++ [x])
      { c with store := c.store.appended b x } where
  source := by
    obtain ⟨there, -⟩ := Array.getElem?_eq_some_iff.1 waiting.source
    exact ((c.store.extends_appended b x).cells there).trans waiting.source
  result := by
    rw [Store.cells_appended, Store.items, waiting.result]
    simp
  size := waiting.size
  small := waiting.small

/-- `i < size(items)`, as the loop of `filter` has it. -/
def filterCondition : Expr :=
  .binary ⟨217, 23⟩ .less (.name ⟨217, 21⟩ "i") (sizeOf 217 25 "items")

/-- `i = i + 1`, as the loop of `filter` has it. -/
def filterStep : Expr :=
  .assign ⟨217, 38⟩ "i" (plusOne 217 42 "i")

theorem Waiting.expr_condition (waiting : Waiting a b items gathered c) (le : k ≤ items.length)
    (steps : Nat) : expr t filterCondition (steps + 5) (between c a g b k) =
      .done (.bool (k < items.length)) (between c a g b k) := by
  have visible : (between c a g b k).scopes.target "size" = "size" := waiting.size
  have sized := (Store.Spells.list waiting.source).hasParts.size
  exact expr_counterLess (le.trans_lt waiting.small) waiting.small (Nat.succ_pos _)
    (expr_size visible (expr_name rfl) sized)

/-- A round of the loop, when the body ends. -/
theorem Waiting.leads_round (waiting : Waiting a b items gathered c) (less : k < items.length)
    (passed : ∃ n, ∀ steps, n ≤ steps →
      Run.inScope (statements t addIfTruthy steps) (between c a g b k) =
        .done .next (between c' a g b' k)) :
    ∃ n, Leads t (some filterCondition) (some filterStep) addIfTruthy n 1 (between c a g b k)
      (between c' a g b' (k + 1)) := by
  obtain ⟨n, passed⟩ := passed
  have small : k + 1 < 2 ^ 53 := Nat.lt_of_le_of_lt less waiting.small
  refine ⟨n + 5, fun steps enough => ?_⟩
  obtain ⟨more, rfl⟩ := Nat.exists_eq_add_of_le' enough
  exact rounds_again (waiting.expr_condition less.le (more + n)) (decide_eq_true less)
    (passed _ (by omega)) (expr_counterNext small)

theorem of_drop_eq_cons {rest : List Value} (left : items.drop k = x :: rest) :
    k < items.length ∧ items[k]? = some x ∧ items.drop (k + 1) = rest := by
  have there : items[k]? = some x := by
    rw [← Nat.add_zero k, ← List.getElem?_drop, left]
    rfl
  obtain ⟨less, -⟩ := List.getElem?_eq_some_iff.1 there
  refine ⟨less, there, ?_⟩
  rw [← List.tail_drop, left]
  rfl

/-- The loop goes through the calls: the induction is on them. -/
theorem Asked.leads {rest : List Value} (asked : Asked t g a k rest kept c b c' b')
    (waiting : Waiting a b items gathered c) (le : k ≤ items.length)
    (left : items.drop k = rest) :
    Waiting a b' items (gathered ++ kept) c' ∧ b ≤ b' ∧
      ∃ n, Leads t (some filterCondition) (some filterStep) addIfTruthy n rest.length
        (between c a g b k) (between c' a g b' items.length) := by
  induction asked generalizing gathered with
  | @nil k b c =>
      obtain rfl := le.antisymm (List.drop_eq_nil_iff.1 left)
      exact ⟨by rwa [List.append_nil], le_rfl, 0, fun _ _ => rfl⟩
  | keep answers truthy later ih =>
      obtain ⟨less, there, others⟩ := of_drop_eq_cons left
      obtain ⟨m, once⟩ := waiting.leads_round less (answers.round_keep waiting there truthy)
      obtain ⟨inside, -⟩ := Array.getElem?_eq_some_iff.1 (waiting.later answers).result
      obtain ⟨waiting', above, n, leads⟩ := ih ((waiting.later answers).appended _) less others
      rw [List.append_assoc] at waiting'
      exact ⟨waiting', (Nat.le_succ_of_le inside.le).trans above, max m n, once.cons leads⟩
  | drop answers falsy later ih =>
      obtain ⟨less, there, others⟩ := of_drop_eq_cons left
      obtain ⟨m, once⟩ := waiting.leads_round less (answers.round_drop waiting there falsy)
      obtain ⟨waiting', above, n, leads⟩ := ih (waiting.later answers) less others
      exact ⟨waiting', above, max m n, once.cons leads⟩

/-! ## The function -/

theorem Answers.calls (answers : Answers t g a b k x v c c') : c'.calls = c.calls := by
  obtain ⟨-, n, called⟩ := answers.ended
  have ended : (apply t ⟨218, 13⟩ g [x] n (asking c a g b k)).state? =
      some (asking c' a g b k) := by
    rw [called]
    rfl
  exact (keeps_apply t _ g [x] n _ _ ended).1

theorem Asked.calls (asked : Asked t g a k items kept c b c' b') : c'.calls = c.calls := by
  induction asked with
  | nil => rfl
  | keep answers _ _ ih => exact ih.trans answers.calls
  | drop answers _ _ ih => exact ih.trans answers.calls

theorem Asked.sublist (asked : Asked t g a k items kept c b c' b') : kept.Sublist items := by
  induction asked with
  | nil => exact .slnil
  | keep _ _ _ ih => exact ih.cons_cons _
  | drop _ _ _ ih => exact ih.cons _

/-- The calls that run and the store when `filter` has made an empty list for its result. -/
def filterStart (s : State) (name : String) (p : Position) : State :=
  { s with calls := s.calls.push ⟨name, p⟩, store := (s.store.newList #[]).2 }

/-- **`filter` keeps the items for which its callback says yes.**  If the callback is called on one
item after the other, and each of these calls ends and leaves the variables and the lists of
`filter` alone, then `filter` ends, and what it gives is a new list of those items for which a
truthy value came, in their order. -/
theorem filter_keeps_truthy {s : State} {name : String} {p : Position}
    (bundled : Bundled t "filter" name) (unshadowed : s.scopes.target "size" = "size")
    (held : s.store.cells[a]? = some (.list items.toArray)) (small : items.length < 2 ^ 53)
    (asked : Asked t g a 0 items kept (filterStart s name p) s.store.size c' b) :
    Ends t p name [.list a, .function g] s (.done (.list b) { c' with calls := s.calls }) ∧
      c'.store.cells[b]? = some (.list kept.toArray) ∧
      c'.store.cells[a]? = some (.list items.toArray) ∧ kept.Sublist items ∧ s.store.size ≤ b := by
  have called : t.find? name = some filter := bundled.find? (by simp [functions])
  let c : State := filterStart s name p
  obtain ⟨there, -⟩ := Array.getElem?_eq_some_iff.1 held
  have waiting : Waiting a s.store.size items [] c :=
    ⟨((Store.Extends.newList s.store #[]).cells there).trans held, Array.getElem?_push_size,
      unshadowed, small⟩
  obtain ⟨waiting', above, n, leads⟩ := asked.leads waiting (Nat.zero_le _) rfl
  refine ⟨⟨Outcome.done_ne_exhausted _ _, n + items.length + 14, ?_⟩, waiting'.result,
    waiting'.source, asked.sublist, above⟩
  have made : statement t (.declare ⟨216, 9⟩ "result" (emptyOf false 216 18))
      (n + items.length + 11) ({ s with calls := s.calls.push ⟨name, p⟩ }.holding
        [("items", .list a), ("f", .function g)]) =
      .done .next (c.holding (locals a g s.store.size)) :=
    statement_declare (show _ = Outcome.done _ (c.holding [("items", .list a), ("f", .function g)])
      from expr_list exprs_none) rfl
  have ended : rounds t (some filterCondition) (some filterStep) addIfTruthy
      (n + items.length + 9) (between c a g s.store.size 0) =
        .done .next (between c' a g b items.length) := by
    rw [Nat.add_right_comm, leads _ (by omega)]
    exact rounds_over (waiting'.expr_condition le_rfl _) (decide_eq_false (lt_irrefl _))
  have body : statements t filter.body (n + items.length + 12)
      ({ s with calls := s.calls.push ⟨name, p⟩ }.holding
        [("items", .list a), ("f", .function g)]) =
      .done (.returned (.list b)) (c'.holding (locals a g b)) :=
    (statements_next made).trans
      ((statements_next (statement_loop_declared (expr_number _) ended)).trans
        (statements_returned (statement_return (expr_name rfl))))
  refine (apply_user bundled.plain called rfl rfl body).trans ?_
  rw [asked.calls]
  rfl

/-- Gives what it is given. -/
def same : Function :=
  ⟨"same", ["x"], [.return ⟨1, 15⟩ (some (.name ⟨1, 22⟩ "x"))], ⟨1, 5⟩⟩

/-- Of an empty text and two other values these are kept by a callback that gives the item. -/
theorem filter_of_three_items :
    let items : List Value := [.string "a", .string "", .bool true]
    let s : State := { State.start (.lines []) with store := ⟨#[.list items.toArray]⟩ }
    let t : FunctionTable := ⟨("same", same) :: table.entries⟩
    ∃ c' b,
      Asked t "same" 0 0 items [.string "a", .bool true] (filterStart s "filter" .start) 1 c' b ∧
      Ends t .start "filter" [.list 0, .function "same"] s
        (.done (.list b) { c' with calls := s.calls }) ∧
      c'.store.cells[b]? = some (.list #[.string "a", .bool true]) := by
  intro items s t
  have own : Intrinsic.ofName? "same" = none := by decide
  have well : same.WellScoped := by decide
  have free : same.callees = [] := by decide
  have answers (b k : Nat) (x : Value) (c : State) : Answers t "same" 0 b k x x c c := by
    let r : State := asking c 0 "same" b k
    let inner : State := { r with calls := r.calls.push ⟨"same", ⟨218, 13⟩⟩ }
    have body : statements t same.body 3 (inner.holding [("x", x)]) =
        .done (.returned x) (inner.holding [("x", x)]) :=
      statements_returned (statement_return (expr_name rfl))
    have ended : Ends t ⟨218, 13⟩ "same" [x] r (.done x r) :=
      ⟨nofun, 5, (apply_user own rfl rfl rfl body).trans rfl⟩
    have undisturbed : Undisturbed same.callees r.scopes := by
      rw [free]
      exact nofun
    have given : Answers t "same" 0 b k x x c { r with scopes := c.scopes } :=
      .of_wellScoped own rfl well undisturbed ended rfl rfl
    exact given
  have asked := Asked.keep (answers 1 0 (.string "a") (filterStart s "filter" .start)) rfl
    (Asked.drop (answers _ 1 (.string "") _) rfl
      (Asked.keep (answers _ 2 (.bool true) _) rfl (Asked.nil (k := 3))))
  have bundled : Bundled t "filter" "filter" :=
    .of_find? (f := filter) (by simp [functions]) (by decide) rfl
  obtain ⟨ended, listed, -⟩ := filter_keeps_truthy bundled rfl rfl (by decide) asked
  exact ⟨_, _, asked, ended, listed⟩

/-- Counts up to three with a variable that it does not declare, and says yes. -/
def spin : Function :=
  ⟨"spin", ["x"],
    [.loop ⟨1, 15⟩ (.expr (.assign ⟨1, 22⟩ "i" (.number ⟨1, 24⟩ (ofNat 0))))
        (some (.binary ⟨1, 29⟩ .less (.name ⟨1, 27⟩ "i") (.number ⟨1, 31⟩ (ofNat 3))))
        (some (.assign ⟨1, 36⟩ "i" (plusOne 1 38 "i"))) [],
      .return ⟨1, 49⟩ (some (.bool ⟨1, 56⟩ true))],
    ⟨1, 5⟩⟩

/-- A callback that counts with the `i` of `filter` is called on the first of four items only: the
loop of `filter` goes on behind the last one, which is what it keeps for the first. -/
theorem filter_disturbed_by_counting :
    let items : List Value := [.number (ofNat 1), .number (ofNat 2), .number (ofNat 3),
      .number (ofNat 4)]
    let s : State := { State.start (.lines []) with store := ⟨#[.list items.toArray]⟩ }
    let t : FunctionTable := ⟨("spin", spin) :: table.entries⟩
    (∀ x ∈ items, (match callFunction t "spin" [x] .start s with
      | .done v s' => s'.store.truthy v
      | _ => false) = true) ∧
    (match callFunction t "filter" [.list 0, .function "spin"] .start s with
      | .done (.list b) s' => some (s'.store.items b)
      | _ => none) = some #[.number (ofNat 4)] := by
  decide +kernel

end Library

end Script
