/-
# Script.Proofs.Eval.Execution -- carrying out a program

One equation for each thing that an expression or a statement does when its parts give results: from
these the run of a program is put together step by step.  Scopes are written with what they hold:
`scopes.holding bindings` is `scopes` and inside them one more scope with these bindings.

A loop that counts from zero up to a bound is carried out by `statement_count`.  The states that it
goes through are given one for each number of rounds, without the counter, which stands in a scope
of its own: if the body leads from each to the next, the loop leads from the first to the last.
-/
import Script.Proofs.Access.Writing
import Script.Proofs.Eval.LoopScope
import Script.Proofs.Number.Counting
import Script.Proofs.Operator.Joining
import Script.Proofs.Operator.Order

namespace Script

set_option autoImplicit false

namespace Scope

variable {word : String} {v w : Value} {bindings : List (String × Value)}

/-- Of two values bound one after the other the second stays. -/
theorem bind_bind : bind word w (bind word v bindings) = bind word w bindings := by
  induction bindings with
  | nil => simp [bind]
  | cons b rest ih =>
      by_cases same : b.1 = word
      · simp [bind, same]
      · simp [bind, same, ih]

end Scope

namespace Scopes

/-- The scopes, and inside them one with the bindings. -/
def holding (s : Scopes) (bindings : List (String × Value)) : Scopes :=
  ⟨⟨bindings⟩, s.toList⟩

variable {s : Scopes} {bindings : List (String × Value)} {word : String} {v w : Value}

theorem lookup_holding (s : Scopes) (bindings : List (String × Value)) (word : String) :
    (s.holding bindings).lookup word = (bindings.lookup word).or (s.lookup word) := by
  have own : (Scope.mk bindings).find? word = bindings.lookup word := rfl
  change (Scope.mk bindings :: s.toList).findSome? (·.find? word) = _
  rw [List.findSome?_cons, own]
  cases bindings.lookup word <;> rfl

theorem lookup_holding_of_bound (bound : bindings.lookup word = some v) (s : Scopes) :
    (s.holding bindings).lookup word = some v := by
  rw [lookup_holding, bound, Option.some_or]

/-- Binding a name in the innermost scope gives it that meaning, and no other name another one. -/
theorem lookup_holding_bind (s : Scopes) (bindings : List (String × Value)) (word : String)
    (v : Value) (other : String) : (s.holding (Scope.bind word v bindings)).lookup other =
      if other = word then some v else (s.holding bindings).lookup other := by
  rw [lookup_holding, lookup_holding, Scope.lookup_bind]
  split <;> rfl

theorem define_holding (unbound : bindings.lookup word = none) (v : Value) :
    (s.holding bindings).define word v = .ok (s.holding (Scope.bind word v bindings)) := by
  have missing : (Scope.mk bindings).contains word = false := by
    rw [Scope.contains, Scope.find?, unbound]
    rfl
  rw [define, holding, missing]
  rfl

theorem assign_holding (bound : bindings.lookup word = some w) (v : Value) :
    (s.holding bindings).assign word v = s.holding (Scope.bind word v bindings) := by
  have found : (Scope.mk bindings).contains word = true := by
    rw [Scope.contains, Scope.find?, bound]
    rfl
  rw [assign, holding, found]
  rfl

/-- A name that the innermost scope does not have is overwritten outside. -/
theorem assign_outside (unbound : bindings.lookup word = none) (bound : s.lookup word = some w)
    (v : Value) : (s.holding bindings).assign word v = (s.assign word v).holding bindings := by
  have missing : (Scope.mk bindings).contains word = false := by
    rw [Scope.contains, Scope.find?, unbound]
    rfl
  cases outside : overwrite? word v s.toList with
  | none =>
      rw [overwrite?_eq_none_iff, List.any_eq_false] at outside
      obtain ⟨scope, member, found⟩ := List.exists_of_findSome?_eq_some bound
      exact absurd (by rw [Scope.contains, found]; rfl) (outside scope member)
  | some scopes =>
      have inside : (s.assign word v).toList = scopes := by
        rw [toList_assign, outside]
        rfl
      rw [assign, holding, missing, holding, inside]
      simp only [Bool.false_eq_true, if_false, outside]

/-- The scopes, and inside them some with these bindings, the innermost first. -/
def inside (s : Scopes) : List (List (String × Value)) → Scopes
  | [] => s
  | bindings :: rest => (s.inside rest).holding bindings

section

variable {frames : List (List (String × Value))}
  (away : ∀ bindings ∈ frames, bindings.lookup word = none)
include away

theorem lookup_inside (s : Scopes) : (s.inside frames).lookup word = s.lookup word := by
  induction frames with
  | nil => rfl
  | cons bindings rest ih =>
      obtain ⟨first, others⟩ := List.forall_mem_cons.1 away
      rw [inside, lookup_holding, first]
      exact ih others

/-- A name that none of these scopes has is overwritten outside of them. -/
theorem assign_inside (bound : s.lookup word = some w) (v : Value) :
    (s.inside frames).assign word v = (s.assign word v).inside frames := by
  induction frames with
  | nil => rfl
  | cons bindings rest ih =>
      obtain ⟨first, others⟩ := List.forall_mem_cons.1 away
      rw [inside, assign_outside first ((lookup_inside others s).trans bound), ih others, inside]

end

end Scopes

namespace State

/-- The state inside one more scope, with the bindings in it. -/
def holding (s : State) (bindings : List (String × Value)) : State :=
  { s with scopes := s.scopes.holding bindings }

@[simp] theorem scopes_holding (s : State) (bindings : List (String × Value)) :
    (s.holding bindings).scopes = s.scopes.holding bindings := rfl

/-- The state with the nearest binding of a name overwritten. -/
def assign (s : State) (word : String) (v : Value) : State :=
  { s with scopes := s.scopes.assign word v }

theorem assign_holding {s : State} {bindings : List (String × Value)} {word : String} {w : Value}
    (bound : bindings.lookup word = some w) (v : Value) :
    (s.holding bindings).assign word v = s.holding (Scope.bind word v bindings) := by
  rw [assign, scopes_holding, Scopes.assign_holding bound]
  rfl

/-- The state inside a loop whose counter stands at `k`. -/
def counting (s : State) (word : String) (k : Nat) : State :=
  s.holding [(word, .number (Number.ofNat k))]

variable (s : State) {word : String} {k : Nat}

theorem lookup_counting :
    (s.counting word k).scopes.lookup word = some (.number (Number.ofNat k)) := by
  simp [counting, Scopes.lookup_holding]

/-- Another name than the counter's is looked up outside the loop. -/
theorem lookup_counting_of_ne {other : String} (differs : other ≠ word) :
    (s.counting word k).scopes.lookup other = s.scopes.lookup other := by
  simp [counting, Scopes.lookup_holding, List.lookup_cons, beq_false_of_ne differs]

theorem assign_counting {m : Nat} :
    (s.counting word k).assign word (.number (Number.ofNat m)) = s.counting word m := by
  have bound : [(word, Value.number (Number.ofNat k))].lookup word =
      some (.number (Number.ofNat k)) := by simp
  rw [counting, assign_holding bound]
  simp [counting, Scope.bind]

/-- The state inside scopes with these bindings, the innermost first. -/
def inside (frames : List (List (String × Value))) : State :=
  { s with scopes := s.scopes.inside frames }

theorem assign_inside {frames : List (List (String × Value))} {name : String} {v w : Value}
    (away : ∀ bindings ∈ frames, bindings.lookup name = none)
    (bound : s.scopes.lookup name = some w) :
    (s.inside frames).assign name v = (s.assign name v).inside frames := by
  rw [assign, inside, Scopes.assign_inside away bound]
  rfl

end State

/-! ## Operators on counts -/

namespace Store

open Number (ofNat)

variable {s : Store} {m n : Nat}

theorem binary_add_ofNat (below : m + n < 2 ^ 53) :
    s.binary .add (.number (ofNat m)) (.number (ofNat n)) =
      .ok (.value (.number (ofNat (m + n)))) := by
  rw [← Number.ofNat_add_ofNat below]
  rfl

theorem binary_subtract_ofNat (le : n ≤ m) (below : m < 2 ^ 53) :
    s.binary .subtract (.number (ofNat m)) (.number (ofNat n)) =
      .ok (.value (.number (ofNat (m - n)))) := by
  rw [← Number.ofNat_sub_ofNat le below]
  rfl

theorem binary_less_ofNat (left : m < 2 ^ 53) (right : n < 2 ^ 53) :
    s.binary .less (.number (ofNat m)) (.number (ofNat n)) =
      .ok (.value (.bool (m < n))) := by
  rw [binary_of_coerce .less rfl rfl, BinaryOp.holds,
    decide_eq_decide.2 (Number.ofNat_lt_ofNat left right)]

theorem binary_lessEqual_ofNat (left : m < 2 ^ 53) (right : n < 2 ^ 53) :
    s.binary .lessEqual (.number (ofNat m)) (.number (ofNat n)) =
      .ok (.value (.bool (m ≤ n))) := by
  rw [binary_of_coerce .lessEqual rfl rfl, BinaryOp.holds,
    decide_eq_decide.2 (Number.ofNat_le_ofNat left right)]

end Store

namespace Eval

variable {t : FunctionTable} {p : Position} {e e' : Expr} {steps : Nat} {s s₁ s₂ s₃ : State}
  {v w r : Value} {word : String} {bindings : List (String × Value)}

/-! ## Expressions -/

theorem expr_number (x : Float) : expr t (.number p x) (steps + 1) s = .done (.number x) s := by
  simp only [expr]
  rfl

theorem expr_name (bound : s.scopes.lookup word = some v) :
    expr t (.name p word) (steps + 1) s = .done v s := by
  simp only [expr, name]
  rw [Run.bind_done (show Run.scopes s = .done s.scopes s from rfl), bound]
  rfl

theorem expr_assign (given : expr t e steps s = .done v s₁) :
    expr t (.assign p word e) (steps + 1) s = .done v (s₁.assign word v) := by
  simp only [expr]
  rw [Run.bind_done given]
  rfl

theorem expr_realized {op : BinaryOp} {product : Product} (first : expr t e steps s = .done v s₁)
    (second : expr t e' steps s₁ = .done w s₂)
    (computed : s₂.store.binary op v w = .ok product) :
    expr t (.binary p op e e') (steps + 1) s =
      .done (s₂.store.realize product).1 { s₂ with store := (s₂.store.realize product).2 } := by
  have last : Run.attempt p (·.binary op v w) s₂ = .done product s₂ := by
    simp only [Run.attempt, computed]
  simp only [expr]
  rw [Run.bind_done first, Run.bind_done second, Run.bind_done last]
  rfl

theorem expr_binary {op : BinaryOp} (first : expr t e steps s = .done v s₁)
    (second : expr t e' steps s₁ = .done w s₂)
    (computed : s₂.store.binary op v w = .ok (.value r)) :
    expr t (.binary p op e e') (steps + 1) s = .done r s₂ :=
  expr_realized first second computed

theorem expr_string (text : String) :
    expr t (.string p text) (steps + 1) s = .done (.string text) s := by
  simp only [expr]
  rfl

theorem expr_bool (b : Bool) : expr t (.bool p b) (steps + 1) s = .done (.bool b) s := by
  simp only [expr]
  rfl

theorem expr_typeName (tag : TypeTag) :
    expr t (.typeName p tag) (steps + 1) s = .done (.typeName tag) s := by
  simp only [expr]
  rfl

theorem expr_unary {op : UnaryOp} (given : expr t e steps s = .done v s₁)
    (computed : s₁.store.unary op v = .ok r) :
    expr t (.unary p op e) (steps + 1) s = .done r s₁ := by
  simp only [expr]
  rw [Run.bind_done given]
  simp only [Run.attempt, computed]

theorem exprs_none : exprs t [] (steps + 1) s = .done [] s := by
  simp only [exprs]
  rfl

theorem exprs_one (given : expr t e (steps + 1) s = .done v s₁) :
    exprs t [e] (steps + 2) s = .done [v] s₁ := by
  simp only [exprs]
  rw [Run.bind_done given]
  rfl

theorem expr_list {es : List Expr} {values : List Value}
    (given : exprs t es steps s = .done values s₁) :
    expr t (.list p es) (steps + 1) s =
      .done (.list s₁.store.size)
        { s₁ with store := (s₁.store.newList values.toArray).2 } := by
  simp only [expr]
  rw [Run.bind_done given]
  rfl

/-! ## Calls -/

section

variable {callee : String} {args : List Expr} {values : List Value} {f : Callee}

/-- A call of what is there comes to what it comes to with the values of the arguments. -/
theorem expr_call (found : t.callee (s.scopes.target callee) args.length = .ok f)
    (same : args.length = values.length) (given : exprs t args steps s = .done values s₁) :
    expr t (.call p callee args) (steps + 2) s =
      apply t p (s.scopes.target callee) values (steps + 1) s₁ := by
  simp only [expr, call, apply]
  rw [Run.bind_done (show Run.scopes s = .done s.scopes s from rfl), ← same, found,
    Run.bind_done (show Run.check p (.ok f) s = .done f s from rfl), Run.bind_done given,
    Run.bind_done (show Run.check p (.ok f) s₁ = .done f s₁ from rfl)]

/-- A function of one argument is called, and no variable stands in the way. -/
theorem expr_function {f : Function} (plain : Intrinsic.ofName? callee = none)
    (known : t.find? callee = some f) (arity : f.arity = 1)
    (unshadowed : s.scopes.target callee = callee) (given : expr t e (steps + 1) s = .done v s₁) :
    expr t (.call p callee [e]) (steps + 4) s = apply t p callee [v] (steps + 3) s₁ := by
  have found : t.callee callee 1 = .ok (.user f) := by
    rw [FunctionTable.callee, plain, known]
    exact if_pos arity
  rw [← unshadowed] at found
  rw [expr_call found rfl (exprs_one given), unshadowed]

/-- An intrinsic of one argument is called, and no variable stands in the way. -/
theorem expr_intrinsic {i : Intrinsic} (own : Intrinsic.ofName? callee = some i)
    (unshadowed : s.scopes.target callee = callee) (accepted : i.accepts 1 = true)
    (given : expr t e (steps + 1) s = .done v s₁)
    (answered : intrinsic t p i [v] (steps + 1) s₁ = .done w s₁) :
    expr t (.call p callee [e]) (steps + 4) s = .done w s₁ := by
  have found : t.callee callee 1 = .ok (.intrinsic i) := by
    rw [FunctionTable.callee, own]
    exact if_pos accepted
  rw [← unshadowed] at found
  rw [expr_call found rfl (exprs_one given)]
  simp only [apply, List.length_singleton, found]
  rw [Run.bind_done (show Run.check p (.ok (Callee.intrinsic i)) s₁ = .done _ s₁ from rfl)]
  simp only [invoke]
  exact answered

theorem expr_size {n : Nat} (unshadowed : s.scopes.target "size" = "size")
    (given : expr t e (steps + 1) s = .done v s₁) (sized : s₁.store.sizeOf v = .ok n) :
    expr t (.call p "size" [e]) (steps + 4) s = .done (.number (Number.ofNat n)) s₁ := by
  refine expr_intrinsic rfl unshadowed rfl given (intrinsic_size ?_)
  rw [Store.sizeNumber, sized]
  rfl

theorem expr_typeOf {tag : TypeTag} (unshadowed : s.scopes.target "typeOf" = "typeOf")
    (given : expr t e (steps + 1) s = .done v s₁) (typed : s₁.store.typeOf v = .ok tag) :
    expr t (.call p "typeOf" [e]) (steps + 4) s = .done (.typeName tag) s₁ := by
  have last : Run.attempt p (·.typeOf v) s₁ = .done tag s₁ := by
    simp only [Run.attempt, typed]
  refine expr_intrinsic rfl unshadowed rfl given ?_
  simp only [intrinsic]
  rw [Run.bind_done last]
  rfl

theorem expr_toNumber {x : Float} (unshadowed : s.scopes.target "toNumber" = "toNumber")
    (given : expr t e (steps + 1) s = .done v s₁) (coerced : s₁.store.coerce v = .ok x) :
    expr t (.call p "toNumber" [e]) (steps + 4) s = .done (.number x) s₁ := by
  have last : Run.attempt p (·.coerce v) s₁ = .done x s₁ := by
    simp only [Run.attempt, coerced]
  refine expr_intrinsic rfl unshadowed rfl given ?_
  simp only [intrinsic]
  rw [Run.bind_done last]
  rfl

end

/-! ## Statements -/

variable {first : Stmt} {rest body yes : List Stmt} {flow : Flow}

theorem statement_declare (given : expr t e steps s = .done v (s₁.holding bindings))
    (unbound : bindings.lookup word = none) :
    statement t (.declare p word e) (steps + 1) s =
      .done .next (s₁.holding (Scope.bind word v bindings)) := by
  have defined : Run.define p word v (s₁.holding bindings) =
      .done () (s₁.holding (Scope.bind word v bindings)) := by
    rw [Run.define, State.scopes_holding, Scopes.define_holding unbound]
    rfl
  simp only [statement]
  rw [Run.bind_done given, Run.bind_done defined]
  rfl

theorem statement_expr (given : expr t e steps s = .done v s₁) :
    statement t (.expr e) (steps + 1) s = .done .next s₁ := by
  simp only [statement]
  rw [Run.bind_done given]
  rfl

theorem statement_return (given : expr t e steps s = .done v s₁) :
    statement t (.return p (some e)) (steps + 1) s = .done (.returned v) s₁ := by
  simp only [statement]
  rw [Run.bind_done given]
  rfl

theorem statement_branch_yes {no : Option (List Stmt)} (given : expr t e steps s = .done v s₁)
    (holds : s₁.store.truthy v = true) :
    statement t (.branch p e yes no) (steps + 1) s = Run.inScope (statements t yes steps) s₁ := by
  simp only [statement]
  rw [Run.bind_done given, Run.truthy_bind, if_pos holds]

theorem statement_branch_none (given : expr t e steps s = .done v s₁)
    (fails : s₁.store.truthy v = false) :
    statement t (.branch p e yes none) (steps + 1) s = .done .next s₁ := by
  simp only [statement]
  rw [Run.bind_done given, Run.truthy_bind, if_neg (by simp [fails])]
  rfl

theorem statement_branch_no {no : List Stmt} (given : expr t e steps s = .done v s₁)
    (fails : s₁.store.truthy v = false) :
    statement t (.branch p e yes (some no)) (steps + 1) s =
      Run.inScope (statements t no steps) s₁ := by
  simp only [statement]
  rw [Run.bind_done given, Run.truthy_bind, if_neg (by simp [fails])]

theorem statements_nil : statements t [] (steps + 1) s = .done .next s := by
  simp only [statements]
  rfl

theorem statements_next (done : statement t first steps s = .done .next s₁) :
    statements t (first :: rest) (steps + 1) s = statements t rest steps s₁ := by
  simp only [statements]
  rw [Run.bind_done done]

theorem statements_returned (done : statement t first steps s = .done (.returned v) s₁) :
    statements t (first :: rest) (steps + 1) s = .done (.returned v) s₁ := by
  simp only [statements]
  rw [Run.bind_done done]
  rfl

/-- A scope is opened for a computation and closed behind it. -/
theorem inScope_done {α : Type} {x : Run α} {a : α}
    (done : x (s.holding []) = .done a (s₁.holding bindings)) :
    Run.inScope x s = .done a s₁ := by
  change (x (s.holding [])).mapState _ = _
  rw [done]
  rfl

theorem inScope_statement (done : statement t first (steps + 1) (s.holding []) =
    .done .next (s₁.holding bindings)) :
    Run.inScope (statements t [first] (steps + 2)) s = .done .next s₁ :=
  inScope_done ((statements_next done).trans statements_nil)

/-- A call of a function of the table opens a scope that holds the arguments. -/
theorem apply_user {f : Function} {name : String} {args : List Value}
    {bindings' : List (String × Value)} (plain : Intrinsic.ofName? name = none)
    (known : t.find? name = some f) (arity : f.arity = args.length)
    (bound : bindParams p f.params args
      ({ s with calls := s.calls.push ⟨name, p⟩ }.holding []) =
        .done () ({ s with calls := s.calls.push ⟨name, p⟩ }.holding bindings))
    (ended : statements t f.body steps
      ({ s with calls := s.calls.push ⟨name, p⟩ }.holding bindings) =
        .done flow (s₁.holding bindings')) :
    apply t p name args (steps + 2) s =
      .done (result flow) { s₁ with calls := s₁.calls.pop } := by
  have found : t.callee name args.length = .ok (.user f) := by
    rw [FunctionTable.callee, plain, known]
    exact if_pos arity
  simp only [apply, found]
  rw [Run.bind_done (show Run.check p (.ok (Callee.user f)) s = .done _ s from rfl)]
  simp only [invoke]
  change Outcome.mapState _ ((bindParams p f.params args >>= fun _ => _)
    ({ s with calls := s.calls.push ⟨name, p⟩ }.holding [])) = _
  rw [Run.bind_done bound, Run.bind_done ended]
  rfl

/-! ## Loops -/

section

variable {condition : Expr} {step : Option Expr}

theorem statement_loop_bare {condition : Option Expr}
    (ended : rounds t condition step body steps (s.holding []) =
      .done flow (s₁.holding bindings)) :
    statement t (.loop p .nothing condition step body) (steps + 1) s = .done flow s₁ := by
  simp only [statement]
  exact inScope_done ended

theorem statement_loop_declared {p' : Position} {condition : Option Expr}
    (given : expr t e steps (s.holding []) = .done v (s.holding []))
    (ended : rounds t condition step body steps (s.holding [(word, v)]) =
      .done flow (s₁.holding bindings)) :
    statement t (.loop p (.declare p' word e) condition step body) (steps + 1) s =
      .done flow s₁ := by
  have opened : Run.define p' word v (s.holding []) = .done () (s.holding [(word, v)]) := rfl
  simp only [statement]
  refine inScope_done (show _ = Outcome.done flow (s₁.holding bindings) from ?_)
  rw [Run.bind_done given, Run.bind_done opened, ended]

theorem rounds_again {step : Expr} (given : expr t condition steps s = .done v s₁)
    (holds : s₁.store.truthy v = true)
    (passed : Run.inScope (statements t body steps) s₁ = .done .next s₂)
    (stepped : expr t step steps s₂ = .done w s₃) :
    rounds t (some condition) (some step) body (steps + 1) s =
      rounds t (some condition) (some step) body steps s₃ := by
  simp only [rounds]
  rw [Run.bind_done given, Run.truthy_bind, if_pos holds, Run.bind_done passed]
  simp only
  rw [Run.bind_done stepped]

theorem rounds_again_bare (given : expr t condition steps s = .done v s₁)
    (holds : s₁.store.truthy v = true)
    (passed : Run.inScope (statements t body steps) s₁ = .done .next s₂) :
    rounds t (some condition) none body (steps + 1) s =
      rounds t (some condition) none body steps s₂ := by
  simp only [rounds]
  rw [Run.bind_done given, Run.truthy_bind, if_pos holds, Run.bind_done passed]

theorem rounds_over (given : expr t condition steps s = .done v s₁)
    (fails : s₁.store.truthy v = false) :
    rounds t (some condition) step body (steps + 1) s = .done .next s₁ := by
  simp only [rounds]
  rw [Run.bind_done given, Run.truthy_bind, if_neg (by simp [fails])]
  rfl

theorem rounds_returned (given : expr t condition steps s = .done v s₁)
    (holds : s₁.store.truthy v = true)
    (left : Run.inScope (statements t body steps) s₁ = .done (.returned w) s₂) :
    rounds t (some condition) step body (steps + 1) s = .done (.returned w) s₂ := by
  simp only [rounds]
  rw [Run.bind_done given, Run.truthy_bind, if_pos holds, Run.bind_done left]
  rfl

end

section

variable {condition step : Option Expr} {c c' m n : Nat}

/-- So many rounds of a loop lead from the one state to the other, if at least `c` steps are left
behind them. -/
def Leads (t : FunctionTable) (condition step : Option Expr) (body : List Stmt) (c n : Nat)
    (s s' : State) : Prop :=
  ∀ steps, c ≤ steps →
    rounds t condition step body (steps + n) s = rounds t condition step body steps s'

theorem Leads.trans (first : Leads t condition step body c m s s₁)
    (second : Leads t condition step body c n s₁ s₂) :
    Leads t condition step body c (m + n) s s₂ := by
  intro steps enough
  rw [Nat.add_comm m, ← Nat.add_assoc, first _ (by omega), second _ enough]

theorem Leads.mono (leads : Leads t condition step body c n s s₁) (le : c ≤ c') :
    Leads t condition step body c' n s s₁ :=
  fun steps enough => leads steps (le.trans enough)

/-- A first round, and then others. -/
theorem Leads.cons (once : Leads t condition step body c 1 s s₁)
    (others : Leads t condition step body c' n s₁ s₂) :
    Leads t condition step body (max c c') (n + 1) s s₂ := by
  rw [Nat.add_comm]
  exact (once.mono (le_max_left c c')).trans (others.mono (le_max_right c c'))

/-- What each round passes on holds after all of them: the induction is on their number. -/
theorem leads_of_rounds (Inv : Nat → State → Prop) (begun : Inv 0 s)
    (turns : ∀ k < n, ∀ r, Inv k r → ∃ r', Inv (k + 1) r' ∧ Leads t condition step body c 1 r r') :
    ∃ s', Inv n s' ∧ Leads t condition step body c n s s' := by
  induction n with
  | zero => exact ⟨s, begun, fun _ _ => rfl⟩
  | succ n ih =>
      obtain ⟨r, held, leads⟩ := ih fun k less => turns k (Nat.lt_succ_of_lt less)
      obtain ⟨r', held', once⟩ := turns n (Nat.lt_succ_self n) r held
      exact ⟨r', held', leads.trans once⟩

end

/-! ## Loops that count -/

section

open Number (ofNat)

variable {p₁ p₂ p₃ p₄ p₅ p₆ p₇ p₈ : Position} {bound : Expr} {count c : Nat}

/-- The counter is less than the bound, or is not. -/
theorem expr_counterLess {k : Nat} (below : k < 2 ^ 53) (small : count < 2 ^ 53)
    (allowed : 0 < steps)
    (bounded : expr t bound steps (s.counting word k) =
      .done (.number (ofNat count)) (s.counting word k)) :
    expr t (.binary p .less (.name p₁ word) bound) (steps + 1) (s.counting word k) =
      .done (.bool (k < count)) (s.counting word k) := by
  obtain ⟨steps, rfl⟩ := Nat.exists_eq_add_of_lt allowed
  exact expr_binary (expr_name s.lookup_counting) bounded (Store.binary_less_ofNat below small)

/-- The counter goes up by one. -/
theorem expr_counterNext {k : Nat} (small : k + 1 < 2 ^ 53) :
    expr t (.assign p word (.binary p₁ .add (.name p₂ word) (.number p₃ (ofNat 1)))) (steps + 3)
      (s.counting word k) = .done (.number (ofNat (k + 1))) (s.counting word (k + 1)) := by
  rw [expr_assign (expr_binary (expr_name s.lookup_counting) (expr_number (ofNat 1))
    (Store.binary_add_ofNat small)), s.assign_counting]

/-- What the body passes on, without the counter, holds after the first `m` rounds. -/
theorem leads_counted (Inv : Nat → State → Prop) (begun : Inv 0 s) (small : count < 2 ^ 53)
    {m : Nat} (within : m ≤ count)
    (bounded : ∀ k < m, ∀ r, Inv k r → ∀ steps, c ≤ steps →
      expr t bound steps (r.counting word k) =
        .done (.number (ofNat count)) (r.counting word k))
    (passes : ∀ k < m, ∀ r, Inv k r → ∃ r', Inv (k + 1) r' ∧ ∀ steps, c ≤ steps →
      Run.inScope (statements t body steps) (r.counting word k) =
        .done .next (r'.counting word k)) :
    ∃ s', Inv m s' ∧ Leads t (some (.binary p .less (.name p₁ word) bound))
      (some (.assign p₂ word (.binary p₃ .add (.name p₄ word) (.number p₅ (ofNat 1))))) body
      (c + 4) m (s.counting word 0) (s'.counting word m) := by
  let condition : Expr := .binary p .less (.name p₁ word) bound
  let step : Expr := .assign p₂ word (.binary p₃ .add (.name p₄ word) (.number p₅ (ofNat 1)))
  have turns : ∀ k < m, ∀ r, (∃ r₀, r = r₀.counting word k ∧ Inv k r₀) →
      ∃ r', (∃ r₀, r' = r₀.counting word (k + 1) ∧ Inv (k + 1) r₀) ∧
        Leads t (some condition) (some step) body (c + 4) 1 r r' := by
    rintro k less _ ⟨r, rfl, held⟩
    obtain ⟨r', held', passed⟩ := passes k less r held
    refine ⟨_, ⟨r', rfl, held'⟩, fun steps enough => ?_⟩
    -- A round uses up one step, and all of its parts get the same number of them.
    obtain ⟨more, rfl⟩ : ∃ more, steps = more + c + 3 + 1 := ⟨steps - c - 4, by omega⟩
    have asked := bounded k less r held (more + c + 3) (by omega)
    exact rounds_again (expr_counterLess (by omega) small (by omega) asked)
      (decide_eq_true (less.trans_le within)) (passed _ (by omega))
      (expr_counterNext (by omega : k + 1 < 2 ^ 53))
  obtain ⟨_, ⟨s', rfl, held⟩, leads⟩ := leads_of_rounds _ ⟨s, rfl, begun⟩ turns
  exact ⟨s', held, leads⟩

/-- What the body passes on, without the counter, holds after a loop that counts from zero up to a
bound. -/
theorem statement_counted (Inv : Nat → State → Prop) (begun : Inv 0 s) (small : count < 2 ^ 53)
    (bounded : ∀ k ≤ count, ∀ r, Inv k r → ∀ steps, c ≤ steps →
      expr t bound steps (r.counting word k) =
        .done (.number (ofNat count)) (r.counting word k))
    (passes : ∀ k < count, ∀ r, Inv k r → ∃ r', Inv (k + 1) r' ∧ ∀ steps, c ≤ steps →
      Run.inScope (statements t body steps) (r.counting word k) =
        .done .next (r'.counting word k)) :
    ∃ s', Inv count s' ∧ ∀ steps, count + c + 5 ≤ steps →
      statement t (.loop p (.declare p₁ word (.number p₂ (ofNat 0)))
          (some (.binary p₃ .less (.name p₄ word) bound))
          (some (.assign p₅ word (.binary p₆ .add (.name p₇ word) (.number p₈ (ofNat 1))))) body)
          steps s =
        .done .next s' := by
  obtain ⟨s', held, leads⟩ :=
    leads_counted Inv begun small le_rfl (fun k less => bounded k less.le) passes
  refine ⟨s', held, fun steps enough => ?_⟩
  obtain ⟨more, rfl⟩ : ∃ more, steps = more + c + 3 + 1 + count + 1 :=
    ⟨steps - (count + c + 5), by omega⟩
  have asked := bounded count le_rfl s' held (more + c + 2) (by omega)
  have steps : more + c + 3 + 1 + count = more + c + 3 + count + 1 := Nat.add_right_comm ..
  exact statement_loop_declared (steps ▸ expr_number (ofNat 0)) ((leads _ (by omega)).trans
    (rounds_over (expr_counterLess small small (by omega) asked)
      (decide_eq_false (lt_irrefl count))))

/-- A loop that counts from zero up to a bound leads from the first state to the last, if its body
leads from each to the next. -/
theorem statement_count (states : Nat → State) (begun : states 0 = s) (small : count < 2 ^ 53)
    (bounded : ∀ k ≤ count, ∀ steps, c ≤ steps → expr t bound steps ((states k).counting word k) =
      .done (.number (ofNat count)) ((states k).counting word k))
    (passes : ∀ k < count, ∀ steps, c ≤ steps →
      Run.inScope (statements t body steps) ((states k).counting word k) =
        .done .next ((states (k + 1)).counting word k))
    (enough : count + c + 5 ≤ steps) :
    statement t (.loop p (.declare p₁ word (.number p₂ (ofNat 0)))
        (some (.binary p₃ .less (.name p₄ word) bound))
        (some (.assign p₅ word (.binary p₆ .add (.name p₇ word) (.number p₈ (ofNat 1))))) body)
        steps s =
      .done .next (states count) := by
  obtain ⟨_, rfl, ended⟩ := statement_counted (fun k r => r = states k) begun.symm small
    (by rintro k le _ rfl; exact bounded k le)
    (by rintro k less _ rfl; exact ⟨_, rfl, passes k less⟩)
  exact ended steps enough

/-- A loop that counts returns in the round in which its body does. -/
theorem statement_count_returned (states : Nat → State) (begun : states 0 = s)
    (small : count < 2 ^ 53) {m : Nat} (less : m < count)
    (bounded : ∀ k ≤ m, ∀ steps, c ≤ steps → expr t bound steps ((states k).counting word k) =
      .done (.number (ofNat count)) ((states k).counting word k))
    (passes : ∀ k < m, ∀ steps, c ≤ steps →
      Run.inScope (statements t body steps) ((states k).counting word k) =
        .done .next ((states (k + 1)).counting word k))
    (left : ∀ steps, c ≤ steps →
      Run.inScope (statements t body steps) ((states m).counting word m) =
        .done (.returned v) (s₁.counting word m))
    (enough : count + c + 5 ≤ steps) :
    statement t (.loop p (.declare p₁ word (.number p₂ (ofNat 0)))
        (some (.binary p₃ .less (.name p₄ word) bound))
        (some (.assign p₅ word (.binary p₆ .add (.name p₇ word) (.number p₈ (ofNat 1))))) body)
        steps s =
      .done (.returned v) s₁ := by
  obtain ⟨more, rfl⟩ : ∃ more, steps = more + c + 3 + 1 + m + 1 :=
    ⟨steps - (m + c + 5), by omega⟩
  obtain ⟨r, same, leads⟩ := leads_counted (fun k r => r = states k) begun.symm small less.le
    (by rintro k before _ rfl; exact bounded k before.le)
    (by rintro k before _ rfl; exact ⟨_, rfl, passes k before⟩)
  have asked := bounded m le_rfl (more + c + 2) (by omega)
  rw [← same] at asked left
  have steps : more + c + 3 + 1 + m = more + c + 3 + m + 1 := Nat.add_right_comm ..
  exact statement_loop_declared (steps ▸ expr_number (ofNat 0)) ((leads _ (by omega)).trans
    (rounds_returned (expr_counterLess (by omega) small (by omega) asked) (decide_eq_true less)
      (left _ (by omega))))

end

end Eval

end Script
