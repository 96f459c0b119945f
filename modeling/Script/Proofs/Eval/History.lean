/-
# Script.Proofs.Eval.History -- everything a run goes through, in order

The evaluator hands back only how a piece of work ends, if it ends.  The history of the work
also has what lies between.  Work consists of parts, each of which begins in the state the
one before it left (`Work.parts`); the history is the moment at which the work begins, the
histories of its parts one after the other, and the moment at which it ends (`history`).
Work that never ends has a history for every number of steps.

A moment is the state and the values at hand: the arguments of a call, the items still to be
mapped, the entries a dictionary is filled with, and at the end the result.  To bind the
parameters of a function is one step, after which its body begins.
-/
import Script.Proofs.Eval.Ending
import Script.Eval.Evaluate

namespace Script

set_option autoImplicit false

/-- What is there at some time in a run. -/
structure Moment where
  values : List Value
  state : State

/-- The value is there: at hand, bound to a name or held by a container. -/
def Moment.Has (m : Moment) (v : Value) : Prop :=
  v ∈ m.values ∨ (∃ scope ∈ m.state.scopes.toList, ∃ b ∈ scope.bindings, b.2 = v) ∨
    ∃ cell ∈ m.state.store.cells.toList, v ∈ cell.values

namespace Outcome

variable {α β : Type}

/-- What follows a result; nothing does where there is none. -/
def andThen (o : Outcome α) (next : α → State → List β) : List β :=
  match o with
  | .done a s => next a s
  | _ => []

/-- The moment of the end, if there is one. -/
def moment? (values : α → List Value) : Outcome α → Option Moment
  | .done a s => some ⟨values a, s⟩
  | .failed _ s => some ⟨[], s⟩
  | .aborted | .exhausted => none

end Outcome

/-- The state with a scope opened. -/
def State.opened (s : State) : State :=
  { s with scopes := s.scopes.push }

/-- The state with a call begun. -/
def State.entered (s : State) (frame : Frame) : State :=
  { s with scopes := s.scopes.push, calls := s.calls.push frame }

/-- The value a function returns. -/
def Flow.values : Flow → List Value
  | .next => []
  | .returned value => [value]

namespace Eval

/-- What the evaluator can have to do. -/
inductive Work where
  | expr (e : Expr)
  | exprs (es : List Expr)
  | dictEntries (position : Position) (entries : List (EntryKey × Expr)) (filled : Dict Value)
  | call (position : Position) (callee : String) (args : List Expr)
  | apply (position : Position) (name : String) (args : List Value)
  | invoke (position : Position) (name : String) (f : Callee) (args : List Value)
  | intrinsic (position : Position) (i : Intrinsic) (args : List Value)
  | mapItems (position : Position) (name : String) (items : List Value)
  | mapText (position : Position) (name : String) (cs : List Char) (joined : String)
  | statement (s : Stmt)
  | rounds (condition step : Option Expr) (body : List Stmt)
  | statements (body : List Stmt)

namespace Work

/-- The values the work is given. -/
def given : Work → List Value
  | .dictEntries _ _ filled => filled.toList.map (·.2)
  | .apply _ _ args | .invoke _ _ _ args | .intrinsic _ _ args => args
  | .mapItems _ _ items => items
  | _ => []

/-- The moment at which the work ends, with the values it gives, if it ends in so many steps. -/
def ending (t : FunctionTable) (steps : Nat) (s : State) : Work → Option Moment
  | .expr e => (Eval.expr t e steps s).moment? fun v => [v]
  | .exprs es => (Eval.exprs t es steps s).moment? id
  | .dictEntries p entries filled =>
      (Eval.dictEntries t p entries filled steps s).moment? fun d => d.toList.map (·.2)
  | .call p callee args => (Eval.call t p callee args steps s).moment? fun v => [v]
  | .apply p name args => (Eval.apply t p name args steps s).moment? fun v => [v]
  | .invoke p name f args => (Eval.invoke t p name f args steps s).moment? fun v => [v]
  | .intrinsic p i args => (Eval.intrinsic t p i args steps s).moment? fun v => [v]
  | .mapItems p name items => (Eval.mapItems t p name items steps s).moment? id
  | .mapText p name cs joined => (Eval.mapText t p name cs joined steps s).moment? fun _ => []
  | .statement st => (Eval.statement t st steps s).moment? Flow.values
  | .rounds condition step body =>
      (Eval.rounds t condition step body steps s).moment? Flow.values
  | .statements body => (Eval.statements t body steps s).moment? Flow.values

/-- The parts of a round of a loop after its condition, and the rounds behind it. -/
def roundParts (t : FunctionTable) (steps : Nat) (condition step : Option Expr)
    (body : List Stmt) (s : State) : List (Work × State) :=
  (.statements body, s.opened) ::
    (Run.inScope (Eval.statements t body steps) s).andThen fun flow s =>
      match flow, step with
      | .returned _, _ => []
      | .next, none => [(.rounds condition step body, s)]
      | .next, some e =>
          (.expr e, s) :: (Eval.expr t e steps s).andThen fun _ s =>
            [(.rounds condition step body, s)]

/-- The parts of the work and the states they begin in, as far as it gets. -/
def parts (t : FunctionTable) (steps : Nat) (s : State) : Work → List (Work × State)
  | .expr (.number _ _) | .expr (.string _ _) | .expr (.bool _ _) | .expr (.null _)
  | .expr (.typeName _ _) | .expr (.name _ _) => []
  | .expr (.list _ items) => [(.exprs items, s)]
  | .expr (.dict p entries) => [(.dictEntries p entries .empty, s)]
  | .expr (.assign _ _ operand) | .expr (.unary _ _ operand) | .expr (.field _ operand _)
  | .expr (.method _ operand _ _) => [(.expr operand, s)]
  | .expr (.binary _ _ first second) | .expr (.index _ first second) =>
      (.expr first, s) :: (Eval.expr t first steps s).andThen fun _ s => [(.expr second, s)]
  | .expr (.setIndex _ target index value) =>
      (.expr target, s) :: (Eval.expr t target steps s).andThen fun _ s =>
        (.expr index, s) :: (Eval.expr t index steps s).andThen fun _ s => [(.expr value, s)]
  | .expr (.call p callee args) => [(.call p callee args, s)]
  | .exprs [] => []
  | .exprs (e :: rest) =>
      (.expr e, s) :: (Eval.expr t e steps s).andThen fun _ s => [(.exprs rest, s)]
  | .dictEntries _ [] _ => []
  | .dictEntries p ((key, e) :: rest) filled =>
      (entryKey p key s).andThen fun key s =>
        (.expr e, s) :: (Eval.expr t e steps s).andThen fun value s =>
          [(.dictEntries p rest (filled.insert key value), s)]
  | .call p callee args =>
      let target := s.scopes.target callee
      match t.callee target args.length with
      | .error _ => []
      | .ok f =>
          (.exprs args, s) :: (Eval.exprs t args steps s).andThen fun values s =>
            [(.invoke p target f values, s)]
  | .apply p name args =>
      match t.callee name args.length with
      | .error _ => []
      | .ok f => [(.invoke p name f args, s)]
  | .invoke p _ (.intrinsic i) args => [(.intrinsic p i args, s)]
  | .invoke p name (.user f) args =>
      (bindParams p f.params args (s.entered ⟨name, p⟩)).andThen fun _ s =>
        [(.statements f.body, s)]
  | .intrinsic p .map [.list a, callback] =>
      (callbackName p callback s).andThen fun name s =>
        [(.mapItems p name (s.store.items a).toList, s)]
  | .intrinsic p .map [.string text, callback] =>
      (callbackName p callback s).andThen fun name s => [(.mapText p name text.toList "", s)]
  | .intrinsic _ _ _ => []
  | .mapItems _ _ [] => []
  | .mapItems p name (item :: rest) =>
      (.apply p name [item], s) :: (Eval.apply t p name [item] steps s).andThen fun _ s =>
        [(.mapItems p name rest, s)]
  | .mapText _ _ [] _ => []
  | .mapText p name (c :: rest) joined =>
      let item := .string (String.singleton c)
      (.apply p name [item], s) :: (Eval.apply t p name [item] steps s).andThen fun value s =>
        (Run.attempt p (·.render value) s).andThen fun text s =>
          [(.mapText p name rest (joined ++ text), s)]
  | .statement (.declare _ _ e) | .statement (.expr e) | .statement (.return _ (some e)) =>
      [(.expr e, s)]
  | .statement (.return _ none) => []
  | .statement (.branch _ condition yes no) =>
      (.expr condition, s) :: (Eval.expr t condition steps s).andThen fun v s =>
        match s.store.truthy v, no with
        | true, _ => [(.statements yes, s.opened)]
        | false, some no => [(.statements no, s.opened)]
        | false, none => []
  | .statement (.loop _ .nothing condition step body) =>
      [(.rounds condition step body, s.opened)]
  | .statement (.loop _ (.declare p word e) condition step body) =>
      (.expr e, s.opened) :: (Eval.expr t e steps s.opened).andThen fun v s =>
        (Run.define p word v s).andThen fun _ s => [(.rounds condition step body, s)]
  | .statement (.loop _ (.expr e) condition step body) =>
      (.expr e, s.opened) :: (Eval.expr t e steps s.opened).andThen fun _ s =>
        [(.rounds condition step body, s)]
  | .statement (.block _ body) => [(.statements body, s.opened)]
  | .rounds none step body => roundParts t steps none step body s
  | .rounds (some e) step body =>
      (.expr e, s) :: (Eval.expr t e steps s).andThen fun v s =>
        if s.store.truthy v then roundParts t steps (some e) step body s else []
  | .statements [] => []
  | .statements (first :: rest) =>
      (.statement first, s) :: (Eval.statement t first steps s).andThen fun flow s =>
        match flow with
        | .next => [(.statements rest, s)]
        | .returned _ => []

/-- Of the intrinsics only `map` has parts. -/
theorem parts_intrinsic {i : Intrinsic} (other : i ≠ .map) (t : FunctionTable) (steps : Nat)
    (s : State) (p : Position) (args : List Value) :
    (Work.intrinsic p i args).parts t steps s = [] := by
  cases i <;> first | rfl | exact absurd rfl other

end Work

/-- The moments the work goes through within so many steps: where it begins, those of its parts,
and where it ends. -/
def history (t : FunctionTable) : Nat → Work → State → List Moment
  | 0, w, s => [⟨w.given, s⟩]
  | steps + 1, w, s =>
      ⟨w.given, s⟩ :: ((w.parts t steps s).flatMap fun part => history t steps part.1 part.2) ++
        (w.ending t (steps + 1) s).toList

/-- The moments that a run of `main` goes through within so many steps. -/
def mainHistory (t : FunctionTable) (input : Input) (steps : Nat) : List Moment :=
  history t steps (.apply .start "main" []) (.start input)

end Eval

end Script
