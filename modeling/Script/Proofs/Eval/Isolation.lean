/-
# Script.Proofs.Eval.Isolation -- functions that do not see their callers

The body of a function runs on top of its caller's scopes.  If it is well scoped it stays in its
own: what it reads and assigns it finds in the scopes opened since the call, whatever lies below.
So in two calls the scopes opened since go on being the same on both sides, with the names that the
text says they have, and those below stay as they are (`Scopes.Local`).  The one name looked up
further below is that of an intrinsic where it is called, and it means the intrinsic unless a
variable there holds a function.

The bundled library is a case: `map` and `filter`, which call what they are given, are the only
functions there that are not well scoped.
-/
import Script.Proofs.Eval.Beside
import Script.Proofs.Module.Standard
import Script.Proofs.Scopes
import Mathlib.Data.List.Forall2

namespace Script

set_option autoImplicit false

/-! ## The scopes opened since a call -/

/-- The scope binds the names and no others. -/
def Scope.Binds (names : List String) (scope : Scope) : Prop :=
  ∀ word, scope.contains word = true ↔ word ∈ names

namespace Scope

theorem binds_empty : empty.Binds [] := by
  intro word
  simp [contains, find?_empty]

theorem Binds.set {scope : Scope} {names : List String} (binds : scope.Binds names)
    (word : String) (value : Value) : (scope.set word value).Binds (word :: names) := by
  intro other
  rw [← mem_names, names_set, Set.mem_insert_iff, mem_names, binds other, List.mem_cons]

/-- Setting a name that is bound binds no other. -/
theorem Binds.overwrite {scope : Scope} {names : List String} (binds : scope.Binds names)
    {word : String} (bound : scope.contains word = true) (value : Value) :
    (scope.set word value).Binds names := by
  intro other
  rw [← mem_names, names_set_of_contains value bound, mem_names, binds other]

end Scope

namespace Scopes

/-- On top of the scopes of two callers are the same scopes, with the names. -/
inductive Local (below below' : Scopes) (frames : List (List String)) (r r' : Scopes) : Prop
  | intro (own : List Scope) (binds : List.Forall₂ Scope.Binds frames own)
      (left : r.toList = own ++ below.toList) (right : r'.toList = own ++ below'.toList) :
      Local below below' frames r r'

/-- A scope with some names is on top of those with the names. -/
def LocalIn (below below' : Scopes) (frames : List (List String)) (r r' : Scopes) : Prop :=
  ∃ names, Local below below' (names :: frames) r r'

variable {below below' r r' : Scopes} {frames : List (List String)} {names : List String}
  {word : String} {value : Value}

/-- Scopes that bind the name among them give it a value. -/
theorem found_of_binds {own : List Scope} (binds : List.Forall₂ Scope.Binds frames own)
    (known : word ∈ frames.flatten) : ∃ value, own.findSome? (·.find? word) = some value := by
  induction binds with
  | nil => cases known
  | @cons names scope frames own first others ih =>
      rw [List.findSome?_cons]
      cases bound : scope.find? word with
      | some value => exact ⟨value, rfl⟩
      | none =>
          refine ih ?_
          rw [List.flatten_cons, List.mem_append] at known
          refine known.resolve_left fun own => ?_
          rw [← first word, Scope.contains, bound] at own
          cases own

theorem unfound_of_binds {own : List Scope} (binds : List.Forall₂ Scope.Binds frames own)
    (unknown : word ∉ frames.flatten) : own.findSome? (·.find? word) = none := by
  induction binds with
  | nil => rfl
  | @cons names scope frames own first others ih =>
      rw [List.flatten_cons, List.mem_append, not_or] at unknown
      have none : scope.find? word = none := by
        rw [← first word] at unknown
        simpa [Scope.contains] using unknown.1
      rw [List.findSome?_cons, none]
      exact ih unknown.2

/-- A name that one of the scopes on top has is overwritten there. -/
theorem overwrite?_of_binds {own : List Scope} (binds : List.Forall₂ Scope.Binds frames own)
    (known : word ∈ frames.flatten) (value : Value) :
    ∃ own', List.Forall₂ Scope.Binds frames own' ∧ overwrite? word value own = some own' := by
  induction binds with
  | nil => cases known
  | @cons names scope frames own first others ih =>
      by_cases bound : scope.contains word = true
      · refine ⟨scope.set word value :: own, .cons (first.overwrite bound value) others, ?_⟩
        rw [overwrite?, if_pos bound]
      · rw [List.flatten_cons, List.mem_append, ← first word] at known
        obtain ⟨own', binds, written⟩ := ih (known.resolve_left bound)
        refine ⟨scope :: own', .cons first binds, ?_⟩
        rw [overwrite?, if_neg bound, written]
        rfl

namespace Local

/-- A name of the scopes on top is found there, the same on both sides. -/
theorem lookup_known (locals : Local below below' frames r r') (known : word ∈ frames.flatten) :
    ∃ value, r.lookup word = some value ∧ r'.lookup word = some value := by
  obtain ⟨own, binds, left, right⟩ := locals
  obtain ⟨value, found⟩ := found_of_binds binds known
  refine ⟨value, ?_, ?_⟩
  · rw [lookup, left, List.findSome?_append, found]
    rfl
  · rw [lookup, right, List.findSome?_append, found]
    rfl

theorem lookup_unknown (locals : Local below below' frames r r')
    (unknown : word ∉ frames.flatten) :
    r.lookup word = below.lookup word ∧ r'.lookup word = below'.lookup word := by
  obtain ⟨own, binds, left, right⟩ := locals
  have none := unfound_of_binds binds unknown
  constructor
  · rw [lookup, left, List.findSome?_append, none]
    rfl
  · rw [lookup, right, List.findSome?_append, none]
    rfl

theorem assign (locals : Local below below' frames r r') (known : word ∈ frames.flatten)
    (value : Value) :
    Local below below' frames (r.assign word value) (r'.assign word value) := by
  obtain ⟨own, binds, left, right⟩ := locals
  obtain ⟨own', binds', written⟩ := overwrite?_of_binds binds known value
  refine ⟨own', binds', ?_, ?_⟩
  · rw [toList_assign, left, overwrite?_append, written]
    rfl
  · rw [toList_assign, right, overwrite?_append, written]
    rfl

/-- The innermost scope is on top, the same on both sides. -/
theorem inner (locals : Local below below' (names :: frames) r r') :
    r.inner = r'.inner ∧ r.inner.Binds names := by
  obtain ⟨own, binds, left, right⟩ := locals
  obtain ⟨inner, outer⟩ := r
  obtain ⟨inner', outer'⟩ := r'
  cases binds with
  | cons first others =>
      cases left
      cases right
      exact ⟨rfl, first⟩

theorem set (locals : Local below below' (names :: frames) r r') (word : String) (value : Value) :
    Local below below' ((word :: names) :: frames) ⟨r.inner.set word value, r.outer⟩
      ⟨r'.inner.set word value, r'.outer⟩ := by
  obtain ⟨own, binds, left, right⟩ := locals
  obtain ⟨inner, outer⟩ := r
  obtain ⟨inner', outer'⟩ := r'
  cases binds with
  | cons first others =>
      cases left
      cases right
      exact ⟨_, .cons (first.set word value) others, rfl, rfl⟩

theorem push (locals : Local below below' frames r r') :
    Local below below' ([] :: frames) r.push r'.push := by
  obtain ⟨own, binds, left, right⟩ := locals
  refine ⟨.empty :: own, .cons Scope.binds_empty binds, ?_, ?_⟩
  · rw [toList_push, left]
    rfl
  · rw [toList_push, right]
    rfl

theorem pop (locals : Local below below' (names :: frames) r r') :
    Local below below' frames r.pop r'.pop := by
  obtain ⟨own, binds, left, right⟩ := locals
  cases binds with
  | @cons _ scope _ own first others =>
      have more : ∀ s : Scopes, own ++ s.toList ≠ [] := by
        intro s none
        have length := congrArg List.length none
        simp [toList] at length
      refine ⟨own, others, ?_, ?_⟩
      · exact toList_pop (more below) left
      · exact toList_pop (more below') right

/-- The same names in another order. -/
theorem congr {names' : List String} (locals : Local below below' (names :: frames) r r')
    (same : ∀ word, word ∈ names ↔ word ∈ names') :
    Local below below' (names' :: frames) r r' := by
  obtain ⟨own, binds, left, right⟩ := locals
  cases binds with
  | cons first others =>
      exact ⟨_, .cons (fun word => (first word).trans (same word)) others, left, right⟩

/-- Nothing is on top of the callers' scopes. -/
theorem nil_iff : Local below below' [] r r' ↔ r = below ∧ r' = below' := by
  constructor
  · intro locals
    obtain ⟨own, binds, left, right⟩ := locals
    cases binds
    obtain ⟨inner, outer⟩ := r
    obtain ⟨inner', outer'⟩ := r'
    cases left
    cases right
    exact ⟨rfl, rfl⟩
  · rintro ⟨rfl, rfl⟩
    exact ⟨[], .nil, rfl, rfl⟩

end Local

end Scopes

namespace Outcome

variable {α : Type}

/-- The same value, or a failure with the same fault at the same place, and store and console the
same; or no end on either side. -/
inductive Agrees : Outcome α → Outcome α → Prop
  | done (a : α) {s s' : State} (store : s.store = s'.store) (console : s.console = s'.console) :
      Agrees (.done a s) (.done a s')
  | failed {failure failure' : Failure} {s s' : State} (fault : failure.fault = failure'.fault)
      (position : failure.position = failure'.position) (store : s.store = s'.store)
      (console : s.console = s'.console) : Agrees (.failed failure s) (.failed failure' s')
  | aborted : Agrees .aborted .aborted
  | exhausted : Agrees .exhausted .exhausted

/-- The scopes left behind are related to some on the other side. -/
theorem Beside.scopes {c : Callers} {R : Scopes → Scopes → Prop} {o o' : Outcome α} {s : State}
    (beside : o.Beside c (fun _ => R) R o') (ended : o.state? = some s) :
    ∃ r', R s.scopes r' := by
  cases beside with
  | done a states =>
      obtain ⟨related, -⟩ := states
      cases ended
      exact ⟨_, related⟩
  | failed failures states =>
      obtain ⟨related, -⟩ := states
      cases ended
      exact ⟨_, related⟩
  | aborted => cases ended
  | exhausted => cases ended

theorem Beside.agrees {after : α → Scopes → Scopes → Prop} {failing : Scopes → Scopes → Prop}
    {o o' : Outcome α} (beside : o.Beside .any after failing o') : o.Agrees o' := by
  cases beside with
  | done a states =>
      obtain ⟨-, -⟩ := states
      exact .done a rfl rfl
  | failed failures states =>
      obtain ⟨-, -⟩ := states
      exact .failed failures.1 failures.2 rfl rfl
  | aborted => exact .aborted
  | exhausted => exact .exhausted

end Outcome

namespace Eval

/-! ## What a well-scoped body does -/

/-- No variable of a name that is called holds a function. -/
def Undisturbed (called : List String) (scopes : Scopes) : Prop :=
  ∀ callee ∈ called, ∀ name, scopes.lookup callee ≠ some (.function name)

/-- Under either caller the called names mean intrinsics, none of them `map`. -/
structure Apart (called : List String) (below below' : Scopes) : Prop where
  intrinsics : ∀ callee ∈ called, ∃ i ∈ Intrinsic.ofName? callee, i ≠ .map
  left : Undisturbed called below
  right : Undisturbed called below'

/-- The nodes of expressions that keep to names. -/
def keeping (called known : List String) : Admission .anywhere where
  admits e := e.nodeKeepsTo called known = true
  covers _ := ⟨trivial, fun _ _ _ _ => trivial⟩

variable {t u : FunctionTable} {called : List String} {below below' r r' : Scopes}
  {frames : List (List String)}

/-- An intrinsic is called by its name, whatever the table. -/
theorem callee_intrinsic {name : String} {i : Intrinsic} (own : Intrinsic.ofName? name = some i)
    (t : FunctionTable) (count : Nat) :
    t.callee name count =
      if i.accepts count then .ok (.intrinsic i) else .error i.arityFault := by
  rw [FunctionTable.callee, own]

/-- Expressions that keep to the names of the scopes on top are evaluated there. -/
def locally (t u : FunctionTable) (apart : Apart called below below')
    (free : ∀ word ∈ frames.flatten, word ∉ called) :
    Tandem (keeping called frames.flatten) t u :=
  beside .any (fun _ : Unit => Scopes.Local below below' frames) (keeping called frames.flatten)
    (fun _ _ => False) False
    (by
      intro p word own _
      have known : word ∈ frames.flatten := of_decide_eq_true own
      refine keep_name (fun locals => ?_) (fun locals none => ?_)
      · obtain ⟨value, left, right⟩ := locals.lookup_known known
        rw [left, right]
      · obtain ⟨value, left, right⟩ := locals.lookup_known known
        rw [left] at none
        cases none)
    (by
      intro p entries entry own member _
      refine keep_entryKey fun locals word same => ?_
      have each := List.all_eq_true.1 own entry member
      rw [same] at each
      obtain ⟨value, left, right⟩ := locals.lookup_known (of_decide_eq_true each)
      rw [left, right])
    (fun value own _ _ _ locals => locals.assign (of_decide_eq_true own) value)
    (by
      intro α p callee args x y own passed i r r' locals
      have calls : callee ∈ called := of_decide_eq_true own
      have unknown : callee ∉ frames.flatten := fun known => free callee known calls
      obtain ⟨left, right⟩ := locals.lookup_unknown unknown
      rw [target_of_unbound fun name => left ▸ apart.left callee calls name,
        target_of_unbound fun name => right ▸ apart.right callee calls name]
      obtain ⟨intrinsic, named, other⟩ := apart.intrinsics callee calls
      have found := callee_intrinsic named t args.length
      rw [found, callee_intrinsic named u]
      split
      · rename_i accepted
        rw [if_pos accepted] at found
        exact passed found (.intrinsic fun mapping => other mapping) i
      · exact Run.beside_fail id p _)
    (fun maps => maps.elim)

theorem locally_kept (apart : Apart called below below')
    (free : ∀ word ∈ frames.flatten, word ∉ called) :
    ∀ n, (locally t u apart free).Kept n n
  | 0 => .zero fun none _ => none rfl ▸ Run.beside_exhausted
  | n + 1 => (locally_kept apart free n).succ fun _ _ _ _ impossible => impossible.elim

theorem local_expr (apart : Apart called below below')
    (free : ∀ word ∈ frames.flatten, word ∉ called) {e : Expr}
    (keeps : e.keepsTo called frames.flatten = true) (n : Nat) :
    Run.KeepBeside .any (Scopes.Local below below' frames) (Eval.expr t e n) (Eval.expr u e n) :=
  (locally_kept apart free n).expr (Expr.keepsTo_iff.1 keeps) ()

/-- How a statement leaves the scopes on top, which begin with the names: with those it declares
besides, if the next one follows. -/
def Left (below below' : Scopes) (declared names : List String) (frames : List (List String)) :
    Flow → Scopes → Scopes → Prop
  | .next => Scopes.Local below below' ((declared ++ names) :: frames)
  | .returned _ => Scopes.LocalIn below below' frames

/-- The statements do the same on both sides, in the scopes on top. -/
structure Isolated (t u : FunctionTable) (called : List String) (below below' : Scopes)
    (n : Nat) : Prop where
  statement : ∀ {st : Stmt} {names : List String} {frames : List (List String)},
    (∀ word ∈ (names :: frames).flatten, word ∉ called) →
    st.keepsTo called (names :: frames).flatten = true →
    Run.Beside .any (Scopes.Local below below' (names :: frames))
      (Left below below' st.declares names frames) (Scopes.LocalIn below below' frames)
      (Eval.statement t st n) (Eval.statement u st n)
  rounds : ∀ {condition step : Option Expr} {body : List Stmt} {frames : List (List String)},
    (∀ word ∈ frames.flatten, word ∉ called) →
    condition.all (·.keepsTo called frames.flatten) = true →
    step.all (·.keepsTo called frames.flatten) = true →
    Stmt.blockKeepsTo called frames.flatten body = true →
    Run.KeepBeside .any (Scopes.Local below below' frames)
      (Eval.rounds t condition step body n) (Eval.rounds u condition step body n)
  statements : ∀ {body : List Stmt} {names : List String} {frames : List (List String)},
    (∀ word ∈ (names :: frames).flatten, word ∉ called) →
    Stmt.blockKeepsTo called (names :: frames).flatten body = true →
    Run.Beside .any (Scopes.Local below below' (names :: frames))
      (fun _ => Scopes.LocalIn below below' frames) (Scopes.LocalIn below below' frames)
      (Eval.statements t body n) (Eval.statements u body n)

namespace Isolated

variable {n : Nat} {names : List String}

theorem zero : Isolated t u called below below' 0 where
  statement _ _ := Run.beside_exhausted
  rounds _ _ _ _ := Run.beside_exhausted
  statements _ _ := Run.beside_exhausted

/-- What is left as it was found. -/
theorem left_of_local {flow : Flow} (locals : Scopes.Local below below' (names :: frames) r r') :
    Left below below' [] names frames flow r r' := by
  cases flow with
  | next => exact locals
  | returned value => exact ⟨names, locals⟩

/-- What runs in a scope of its own leaves those below as it found them. -/
theorem inScope {α : Type} {x y : Run α}
    (body : Run.Beside .any (Scopes.Local below below' ([] :: frames))
      (fun _ => Scopes.LocalIn below below' frames) (Scopes.LocalIn below below' frames) x y) :
    Run.KeepBeside .any (Scopes.Local below below' frames) (Run.inScope x) (Run.inScope y) := by
  have closes : ∀ {r r'}, Scopes.LocalIn below below' frames r r' →
      Scopes.Local below below' frames r.pop r'.pop := fun ⟨_, locals⟩ => locals.pop
  exact Run.beside_inScope Scopes.Local.push closes closes body

theorem block (isolated : Isolated t u called below below' n) {body : List Stmt}
    (free : ∀ word ∈ frames.flatten, word ∉ called)
    (keeps : Stmt.blockKeepsTo called frames.flatten body = true) :
    Run.KeepBeside .any (Scopes.Local below below' frames)
      (Run.inScope (Eval.statements t body n)) (Run.inScope (Eval.statements u body n)) :=
  inScope (isolated.statements free keeps)

/-- An expression in front of something else. -/
theorem first (apart : Apart called below below')
    (free : ∀ word ∈ (names :: frames).flatten, word ∉ called) {e : Expr}
    (keeps : e.keepsTo called (names :: frames).flatten = true) :
    Run.Beside .any (Scopes.Local below below' (names :: frames))
      (fun _ => Scopes.Local below below' (names :: frames)) (Scopes.LocalIn below below' frames)
      (Eval.expr t e n) (Eval.expr u e n) :=
  (local_expr apart free keeps n).imp id fun locals => ⟨names, locals⟩

theorem declared {p : Position} {word : String} {value : Value} :
    Run.Beside .any (Scopes.Local below below' (names :: frames))
      (fun _ => Scopes.Local below below' ((word :: names) :: frames))
      (Scopes.LocalIn below below' frames)
      (Run.define p word value) (Run.define p word value) :=
  Run.beside_define (fun locals => by rw [locals.inner.1]) (fun locals => ⟨names, locals⟩)
    fun locals _ => locals.set word value

/-- What keeps the scopes on top leaves them as a statement that declares nothing does. -/
theorem left_of_kept {x y : Run Flow}
    (beside : Run.KeepBeside .any (Scopes.Local below below' (names :: frames)) x y) :
    Run.Beside .any (Scopes.Local below below' (names :: frames)) (Left below below' [] names frames)
      (Scopes.LocalIn below below' frames) x y :=
  beside.imp left_of_local fun locals => ⟨names, locals⟩

theorem loop_succ (apart : Apart called below below')
    (isolated : Isolated t u called below below' n) {p : Position} {start : LoopStart}
    {condition step : Option Expr} {body : List Stmt}
    (free : ∀ word ∈ (names :: frames).flatten, word ∉ called)
    (keeps : (Stmt.loop p start condition step body).keepsTo called (names :: frames).flatten =
      true) :
    Run.KeepBeside .any (Scopes.Local below below' (names :: frames))
      (Eval.statement t (.loop p start condition step body) (n + 1))
      (Eval.statement u (.loop p start condition step body) (n + 1)) := by
  rw [Stmt.keepsTo.eq_def] at keeps
  simp only [Bool.and_eq_true] at keeps
  obtain ⟨⟨⟨begins, condition⟩, step⟩, body⟩ := keeps
  have rounds (free : ∀ word ∈ (start.declares :: names :: frames).flatten, word ∉ called) :
      Run.Beside .any (Scopes.Local below below' (start.declares :: names :: frames))
        (fun _ => Scopes.LocalIn below below' (names :: frames))
        (Scopes.LocalIn below below' (names :: frames))
        (Eval.rounds t _ _ _ n) (Eval.rounds u _ _ _ n) :=
    (isolated.rounds free condition step body).imp (fun locals => ⟨start.declares, locals⟩)
      fun locals => ⟨start.declares, locals⟩
  have opened : ∀ word ∈ ([] :: names :: frames).flatten, word ∉ called := free
  simp only [Eval.statement]
  refine inScope ?_
  cases start with
  | nothing => exact rounds opened
  | declare q word value =>
      rw [Bool.and_eq_true, decide_eq_true_eq] at begins
      have freed : ∀ other ∈ ([word] :: names :: frames).flatten, other ∉ called :=
        List.forall_mem_cons.2 ⟨begins.2, free⟩
      refine (first apart opened begins.1).bind fun v => ?_
      refine declared.bind fun _ => ?_
      exact rounds freed
  | expr e => exact (first apart opened begins).bind fun v => rounds opened

theorem statement_succ (apart : Apart called below below')
    (isolated : Isolated t u called below below' n) {st : Stmt}
    (free : ∀ word ∈ (names :: frames).flatten, word ∉ called)
    (keeps : st.keepsTo called (names :: frames).flatten = true) :
    Run.Beside .any (Scopes.Local below below' (names :: frames))
      (Left below below' st.declares names frames) (Scopes.LocalIn below below' frames)
      (Eval.statement t st (n + 1)) (Eval.statement u st (n + 1)) := by
  cases st with
  | declare p word value =>
      rw [Stmt.keepsTo, Bool.and_eq_true] at keeps
      simp only [Eval.statement]
      refine (first apart free keeps.1).bind fun v => ?_
      exact declared.bind fun _ => Run.beside_pure id
  | expr e =>
      rw [Stmt.keepsTo] at keeps
      simp only [Eval.statement]
      exact (first apart free keeps).bind fun _ => Run.beside_pure id
  | «return» p value =>
      cases value with
      | none =>
          simp only [Eval.statement]
          exact Run.beside_pure fun locals => ⟨names, locals⟩
      | some e =>
          rw [Stmt.keepsTo] at keeps
          simp only [Eval.statement]
          exact (first apart free keeps).bind fun v => Run.beside_pure fun locals =>
            ⟨names, locals⟩
  | branch p condition yes no =>
      rw [Stmt.keepsTo.eq_def] at keeps
      simp only [Bool.and_eq_true] at keeps
      obtain ⟨⟨holds, yes⟩, no⟩ := keeps
      simp only [Eval.statement]
      refine (first apart free holds).bind fun v => ?_
      refine (Run.beside_truthy v).bind fun holds => ?_
      split
      · exact left_of_kept (isolated.block free yes)
      · split
        · exact left_of_kept (isolated.block free no)
        · exact Run.beside_pure left_of_local
  | loop p start condition step body => exact left_of_kept (loop_succ apart isolated free keeps)
  | block p body =>
      rw [Stmt.keepsTo] at keeps
      simp only [Eval.statement]
      exact left_of_kept (isolated.block free keeps)

/-- A round of a loop, and the rounds behind it. -/
theorem keep_round (apart : Apart called below below')
    (isolated : Isolated t u called below below' n)
    (free : ∀ word ∈ frames.flatten, word ∉ called) {step : Option Expr} {body : List Stmt}
    (stepKeeps : step.all (·.keepsTo called frames.flatten) = true)
    (bodyKeeps : Stmt.blockKeepsTo called frames.flatten body = true) {further further' : Run Flow}
    (later : Run.KeepBeside .any (Scopes.Local below below' frames) further further') :
    Run.KeepBeside .any (Scopes.Local below below' frames) (Eval.round t step body n further)
      (Eval.round u step body n further') := by
  refine (isolated.block free bodyKeeps).bind fun flow => ?_
  cases flow with
  | returned value => exact Run.beside_pure id
  | next =>
      cases step with
      | none => exact later
      | some e => exact (local_expr apart free stepKeeps n).bind fun _ => later

theorem rounds_succ (apart : Apart called below below')
    (isolated : Isolated t u called below below' n)
    (free : ∀ word ∈ frames.flatten, word ∉ called) {condition step : Option Expr}
    {body : List Stmt} (conditionKeeps : condition.all (·.keepsTo called frames.flatten) = true)
    (stepKeeps : step.all (·.keepsTo called frames.flatten) = true)
    (bodyKeeps : Stmt.blockKeepsTo called frames.flatten body = true) :
    Run.KeepBeside .any (Scopes.Local below below' frames)
      (Eval.rounds t condition step body (n + 1)) (Eval.rounds u condition step body (n + 1)) := by
  have further := isolated.rounds free conditionKeeps stepKeeps bodyKeeps
  have round := keep_round apart isolated free stepKeeps bodyKeeps further
  rw [Eval.rounds.eq_def, Eval.rounds.eq_def]
  dsimp only
  cases condition with
  | none => exact round
  | some e =>
      refine (local_expr apart free conditionKeeps n).bind fun v => ?_
      refine (Run.beside_truthy v).bind fun holds => ?_
      cases holds with
      | true => exact round
      | false => exact Run.beside_pure id

/-- What a statement declares is not called. -/
theorem free_declares {st : Stmt} {known : List String} (keeps : st.keepsTo called known = true) :
    ∀ word ∈ st.declares, word ∉ called := by
  cases st with
  | declare p word value =>
      rw [Stmt.keepsTo, Bool.and_eq_true, decide_eq_true_eq] at keeps
      exact List.forall_mem_singleton.2 keeps.2
  | _ => exact List.forall_mem_nil _

theorem statements_succ (isolated : Isolated t u called below below' n) {body : List Stmt}
    (free : ∀ word ∈ (names :: frames).flatten, word ∉ called)
    (keeps : Stmt.blockKeepsTo called (names :: frames).flatten body = true) :
    Run.Beside .any (Scopes.Local below below' (names :: frames))
      (fun _ => Scopes.LocalIn below below' frames) (Scopes.LocalIn below below' frames)
      (Eval.statements t body (n + 1)) (Eval.statements u body (n + 1)) := by
  cases body with
  | nil =>
      simp only [Eval.statements]
      exact Run.beside_pure fun locals => ⟨names, locals⟩
  | cons st rest =>
      rw [Stmt.blockKeepsTo, Bool.and_eq_true] at keeps
      have known : st.declares ++ (names :: frames).flatten =
          ((st.declares ++ names) :: frames).flatten := by
        simp only [List.flatten_cons, List.append_assoc]
      have freed : ∀ word ∈ ((st.declares ++ names) :: frames).flatten, word ∉ called := by
        rw [← known]
        exact List.forall_mem_append.2 ⟨free_declares keeps.1, free⟩
      simp only [Eval.statements]
      refine (isolated.statement free keeps.1).bind fun flow => ?_
      cases flow with
      | returned value => exact Run.beside_pure id
      | next => exact isolated.statements freed (known ▸ keeps.2)

end Isolated

/-- **Well-scoped statements do the same on both sides**, whatever lies below. -/
theorem isolated (t u : FunctionTable) (apart : Apart called below below') :
    ∀ n, Isolated t u called below below' n
  | 0 => .zero
  | n + 1 =>
      have before := isolated t u apart n
      { statement := Isolated.statement_succ apart before
        rounds := fun free => Isolated.rounds_succ apart before free
        statements := Isolated.statements_succ before }

/-! ## Calls -/

/-- The parameters are bound in the scope of the call. -/
theorem local_bindParams (p : Position) :
    ∀ (params : List String) (args : List Value) (names : List String),
      params.length = args.length →
      Run.Beside .any (Scopes.Local below below' (names :: frames))
        (fun _ => Scopes.Local below below' ((params.reverse ++ names) :: frames))
        (Scopes.LocalIn below below' frames)
        (bindParams p params args) (bindParams p params args)
  | [], [], _, _ => Run.beside_pure id
  | param :: params, value :: values, names, same => by
      have others := local_bindParams p params values (param :: names) (Nat.succ.inj same)
      rw [List.append_cons, ← List.reverse_cons] at others
      exact Isolated.declared.bind fun _ => others

/-- The body runs in a scope of its own, where only the parameters are known. -/
theorem local_invoke {f : Function} (well : f.WellScoped) (apart : Apart f.callees below below')
    (p : Position) (name : String) {args : List Value} (arity : f.arity = args.length) :
    ∀ n, Run.KeepBeside .any (Scopes.Local below below' [])
      (Eval.invoke t p name (.user f) args n) (Eval.invoke u p name (.user f) args n)
  | 0 => Run.beside_exhausted
  | n + 1 => by
      have own : [f.params].flatten = f.params := List.flatten_singleton
      have free : ∀ word ∈ [f.params].flatten, word ∉ f.callees := by
        rw [own]
        exact well.params
      have keeps : Stmt.blockKeepsTo f.callees [f.params].flatten f.body = true := by
        rw [own]
        exact well.body
      have body := (isolated t u apart n).statements free keeps
      have bound : Run.Beside .any (Scopes.Local below below' [[]])
          (fun _ => Scopes.Local below below' [f.params]) (Scopes.LocalIn below below' [])
          (bindParams p f.params args) (bindParams p f.params args) :=
        (local_bindParams p f.params args [] arity).imp (fun locals => locals.congr (by simp)) id
      have closes : ∀ {r r'}, Scopes.LocalIn below below' [] r r' →
          Scopes.Local below below' [] r.pop r'.pop := fun ⟨_, locals⟩ => locals.pop
      simp only [Eval.invoke]
      refine Run.beside_inCall Scopes.Local.push closes closes (bound.bind fun _ => ?_)
      exact body.bind fun _ => Run.beside_pure id

/-- A function of the table is called by its name, with as many arguments as it has parameters. -/
theorem callee_user {name : String} {f : Function} (own : Intrinsic.ofName? name = none)
    (known : t.find? name = some f) (count : Nat) :
    t.callee name count =
      if f.arity = count then .ok (.user f) else .error (.functionArity name f.arity count) := by
  rw [FunctionTable.callee, own, known]

/-- A call of a well-scoped function leaves the callers' scopes alone. -/
theorem local_apply {name : String} {f : Function} (own : Intrinsic.ofName? name = none)
    (left : t.find? name = some f) (right : u.find? name = some f) (well : f.WellScoped)
    (apart : Apart f.callees below below') (p : Position) (args : List Value) :
    ∀ n, Run.KeepBeside .any (Scopes.Local below below' []) (Eval.apply t p name args n)
      (Eval.apply u p name args n)
  | 0 => Run.beside_exhausted
  | n + 1 => by
      simp only [Eval.apply]
      rw [callee_user own left, callee_user own right]
      split
      · rename_i arity
        exact local_invoke well apart p name arity n
      · exact Run.beside_fail id p _

/-- No call of a well-scoped function changes a variable of its caller. -/
theorem scopes_apply {name : String} {f : Function} (own : Intrinsic.ofName? name = none)
    (known : t.find? name = some f) (well : f.WellScoped) (p : Position) (args : List Value)
    (steps : Nat) {s s₁ : State} (undisturbed : Undisturbed f.callees s.scopes)
    (ended : (apply t p name args steps s).state? = some s₁) : s₁.scopes = s.scopes := by
  have apart : Apart f.callees s.scopes s.scopes := ⟨well.intrinsics, undisturbed, undisturbed⟩
  have beside := local_apply own known known well apart p args steps s s
    ⟨Scopes.Local.nil_iff.2 ⟨rfl, rfl⟩, trivial⟩
  obtain ⟨_, locals⟩ := beside.scopes ended
  exact (Scopes.Local.nil_iff.1 locals).1

/-- **A well-scoped function is isolated from its callers.**  Under callers with no function in a
variable of a name that it calls, a call of it leaves all their scopes as they were, whether it has
a value or fails.  It agrees with a call by any other such caller, in another program even, as long
as store and console are the same: in its value, or the fault and its place, and in what becomes of
store and console.  All functions of module `std` but `map` and `filter` are well scoped. -/
theorem isolated_from_caller :
    (∀ {t u : FunctionTable} {name : String} {f : Function}, Intrinsic.ofName? name = none →
      t.find? name = some f → u.find? name = some f → f.WellScoped →
      ∀ (p : Position) (args : List Value) (steps : Nat) (s : State),
        Undisturbed f.callees s.scopes →
          (∀ s₁, (apply t p name args steps s).state? = some s₁ → s₁.scopes = s.scopes) ∧
          ∀ s' : State, Undisturbed f.callees s'.scopes → s'.store = s.store →
            s'.console = s.console →
            (apply t p name args steps s).Agrees (apply u p name args steps s')) ∧
    ∃ program, Program.ofText Module.standardText = .ok program ∧
      ∀ entry ∈ program.functions.entries,
        entry.2.WellScoped ↔ entry.1 ≠ "map" ∧ entry.1 ≠ "filter" := by
  refine ⟨?_, Module.standard_wellScoped⟩
  intro t u name f own left right well p args steps s undisturbed
  refine ⟨fun s₁ => scopes_apply own left well p args steps undisturbed, ?_⟩
  rintro ⟨scopes', calls', _, _⟩ undisturbed' rfl rfl
  have apart : Apart f.callees s.scopes scopes' := ⟨well.intrinsics, undisturbed, undisturbed'⟩
  refine (local_apply own left right well apart p args steps s _ ?_).agrees
  exact ⟨Scopes.Local.nil_iff.2 ⟨rfl, rfl⟩, trivial⟩

/-- Writes a text, out of a loop over one `line`. -/
def announce : Function where
  name := "announce"
  params := ["text"]
  body := [.loop ⟨2, 5⟩ (.declare ⟨2, 10⟩ "line" (.name ⟨2, 21⟩ "text"))
    (some (.name ⟨2, 27⟩ "line")) (some (.assign ⟨2, 33⟩ "line" (.null ⟨2, 40⟩)))
    [.expr (.call ⟨3, 9⟩ "println" [.name ⟨3, 17⟩ "line"])]]
  position := ⟨1, 5⟩

/-- A caller keeps its own `line`, and another one has none. -/
theorem announce_isolated :
    let t : FunctionTable := ⟨[("announce", announce)]⟩
    let s : State := { State.start (.lines []) with
      scopes := ⟨⟨[("line", .bool true), ("println", .null)]⟩, []⟩ }
    let s' : State := .start (.lines [])
    announce.WellScoped ∧ Undisturbed announce.callees s.scopes ∧
      (∃ s₁, apply t .start "announce" [.string "ready"] 20 s = .done .null s₁ ∧
        s₁.scopes = s.scopes) ∧
      (apply t .start "announce" [.string "ready"] 20 s).Agrees
        (apply t .start "announce" [.string "ready"] 20 s') := by
  intro t s s'
  have own : Intrinsic.ofName? "announce" = none := by decide
  have well : announce.WellScoped := by decide
  have callees : announce.callees = ["println"] := by decide
  have undisturbed : Undisturbed announce.callees s.scopes := by
    rw [callees]
    rintro _ (_ | ⟨_, ⟨⟩⟩) name ⟨⟩
  have undisturbed' : Undisturbed announce.callees s'.scopes := by
    rw [callees]
    rintro _ (_ | ⟨_, ⟨⟩⟩) name ⟨⟩
  obtain ⟨kept, agree⟩ := isolated_from_caller.1 (t := t) (u := t) own rfl rfl well .start
    [.string "ready"] 20 s undisturbed
  exact ⟨well, undisturbed, ⟨_, rfl, kept _ rfl⟩, agree s' undisturbed' rfl rfl⟩

end Eval

end Script
