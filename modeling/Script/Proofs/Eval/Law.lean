/-
# Script.Proofs.Eval.Law -- what holds of all that the evaluator does

A `Law` is a property of computations that the building blocks of the evaluator have and
keep.  It is a lockstep of the evaluator with itself, so it holds of every part of it,
whatever the number of steps (`Law.kept`).

A law has two sides.  What runs inside a scope may change that scope, and satisfies
`code`.  What a call does, once its arguments are there, satisfies `call`, which is the
stronger of the two.  Both depend on the `Sites` of the code that is running: where it
may report failures, and where it makes calls.
-/
import Script.Proofs.Eval.Lockstep

namespace Script

set_option autoImplicit false

namespace Eval

/-- A property of computations that the evaluator's building blocks have and keep. -/
structure Law (t : FunctionTable) where
  /-- Of what runs inside a scope. -/
  code : Sites → {α : Type} → Run α → Prop
  /-- Of what a call does. -/
  call : Sites → {α : Type} → Run α → Prop
  code_of_call : ∀ {s : Sites} {α : Type} {x : Run α}, call s x → code s x
  call_pure : ∀ {s : Sites} {α : Type} (a : α), call s (pure a : Run α)
  call_bind : ∀ {s : Sites} {α β : Type} {x : Run α} {f : α → Run β},
    call s x → (∀ a, call s (f a)) → call s (x >>= f)
  code_bind : ∀ {s : Sites} {α β : Type} {x : Run α} {f : α → Run β},
    code s x → (∀ a, code s (f a)) → code s (x >>= f)
  call_exhausted : ∀ {s : Sites} {α : Type}, call s (Run.exhausted : Run α)
  call_fail : ∀ {s : Sites} {α : Type} {p : Position} (fault : Fault),
    s.fails p → call s (Run.fail p fault : Run α)
  call_attempt : ∀ {s : Sites} {α : Type} {p : Position} (operation : Store → Attempt α),
    s.fails p → call s (Run.attempt p operation)
  call_make : ∀ {s : Sites} (create : Store → Value × Store), call s (Run.make create)
  call_writeLine : ∀ {s : Sites} (line : String), call s (Run.writeLine line)
  call_readLine : ∀ {s : Sites}, call s Run.readLine
  call_enter : ∀ {s : Sites} {name : String} {p : Position} {f : Function} {args : List Value}
    {body : Run Flow}, Intrinsic.ofName? name = none → t.find? name = some f →
    s.calls p f.arity → code f.sites body → call s (enter name p f args body)
  code_scopes : ∀ {s : Sites}, code s Run.scopes
  code_truthy : ∀ {s : Sites} (v : Value), code s (Run.truthy v)
  code_write : ∀ {s : Sites} (place : Place) (value : Value), code s (Run.write place value)
  code_define : ∀ {s : Sites} {p : Position} (name : String) (value : Value),
    s.fails p → code s (Run.define p name value)
  code_assign : ∀ {s : Sites} (name : String) (value : Value), code s (Run.assign name value)
  code_inScope : ∀ {s : Sites} {α : Type} {x : Run α}, code s x → code s (Run.inScope x)

namespace Law

variable {t : FunctionTable} (law : Law t)

/-- The law as a relation between each computation and itself. -/
def lockstep : Lockstep t t where
  code s _ x _ := law.code s x
  call s _ x _ := law.call s x
  code_of_call := law.code_of_call
  call_pure := law.call_pure
  call_bind := law.call_bind
  code_bind := law.code_bind
  call_exhausted := law.call_exhausted
  call_fail := law.call_fail
  call_attempt := law.call_attempt
  call_make := law.call_make
  call_writeLine := law.call_writeLine
  call_readLine := law.call_readLine
  callee found := found
  call_refused := fun _ fails _ => law.call_fail _ fails
  call_enter := law.call_enter
  code_reference := by
    intro s p word fails
    unfold reference
    split
    · exact law.code_of_call (law.call_pure _)
    · exact law.code_of_call (law.call_fail _ fails)
  code_scopes := law.code_scopes
  code_truthy := law.code_truthy
  code_write := law.code_write
  code_define := law.code_define
  code_assign := law.code_assign
  code_inScope := law.code_inScope

/-- The law holds of every part of the evaluator that may make so many steps. -/
structure Kept (steps : Nat) : Prop where
  expr : ∀ {s : Sites} {e : Expr}, s.Covers e → law.code s (Eval.expr t e steps)
  exprs : ∀ {s : Sites} {es : List Expr}, s.CoversItems es → law.code s (Eval.exprs t es steps)
  dictEntries : ∀ {s : Sites} {p : Position} {entries : List (EntryKey × Expr)}
    (filled : Dict Value), s.fails p → s.CoversEntries entries →
    law.code s (Eval.dictEntries t p entries filled steps)
  call : ∀ {s : Sites} {p : Position} {args : List Expr} (callee : String),
    s.calls p args.length → s.CoversItems args → law.code s (Eval.call t p callee args steps)
  apply : ∀ {s : Sites} {p : Position} {args : List Value} (name : String),
    s.calls p args.length → law.call s (Eval.apply t p name args steps)
  invoke : ∀ {s : Sites} {p : Position} {name : String} {count : Nat} {f : Callee}
    (args : List Value), s.calls p count → t.callee name count = .ok f →
    law.call s (Eval.invoke t p name f args steps)
  intrinsic : ∀ {s : Sites} {p : Position} {count : Nat} {i : Intrinsic} (args : List Value),
    s.calls p count → i.accepts count = true → law.call s (Eval.intrinsic t p i args steps)
  mapItems : ∀ {s : Sites} {p : Position} (name : String) (items : List Value),
    s.calls p 1 → law.call s (Eval.mapItems t p name items steps)
  mapText : ∀ {s : Sites} {p : Position} (name : String) (cs : List Char) (joined : String),
    s.calls p 1 → law.call s (Eval.mapText t p name cs joined steps)
  statement : ∀ {s : Sites} {st : Stmt}, s.CoversStmt st →
    law.code s (Eval.statement t st steps)
  rounds : ∀ {s : Sites} {condition step : Option Expr} {body : List Stmt},
    (∀ e ∈ condition, s.Covers e) → (∀ e ∈ step, s.Covers e) → s.CoversBlock body →
    law.code s (Eval.rounds t condition step body steps)
  statements : ∀ {s : Sites} {body : List Stmt}, s.CoversBlock body →
    law.code s (Eval.statements t body steps)

/-- **A law holds of every part of the evaluator.** -/
theorem kept (steps : Nat) : law.Kept steps :=
  have both := law.lockstep.kept steps
  { expr := both.expr
    exprs := both.exprs
    dictEntries := both.dictEntries
    call := both.call
    apply := both.apply
    invoke := both.invoke
    intrinsic := both.intrinsic
    mapItems := both.mapItems
    mapText := both.mapText
    statement := both.statement
    rounds := both.rounds
    statements := both.statements }

end Law

end Eval

end Script
