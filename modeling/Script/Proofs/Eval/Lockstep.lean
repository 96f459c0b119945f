/-
# Script.Proofs.Eval.Lockstep -- the same code run over two tables

A `Lockstep` is a relation between computations over one table and computations over
another, which the building blocks of the evaluator are in and keep.  It is a convoy of the
same code over both tables, so it is kept by the evaluator: whatever the number of steps,
each part of it over the first table is related to the same part over the second
(`Lockstep.kept`).

A lockstep has two sides.  What runs inside a scope may change that scope, and satisfies
`code`.  What a call does, once its arguments are there, satisfies `call`, which is the
stronger of the two.  Both depend on the `Sites` of the code that is running: where it
may report failures, and where it makes calls.

The tables themselves show in two places only, where a name is looked up as a function and
where it is called.
-/
import Script.Proofs.Eval.Tandem

namespace Script

set_option autoImplicit false

namespace Eval

/-- A relation between computations over two tables that the evaluator's building blocks are in and
keep. -/
structure Lockstep (t u : FunctionTable) where
  /-- Of what runs inside a scope. -/
  code : Sites → {α : Type} → Run α → Run α → Prop
  /-- Of what a call does. -/
  call : Sites → {α : Type} → Run α → Run α → Prop
  code_of_call : ∀ {s : Sites} {α : Type} {x y : Run α}, call s x y → code s x y
  call_pure : ∀ {s : Sites} {α : Type} (a : α), call s (pure a : Run α) (pure a)
  call_bind : ∀ {s : Sites} {α β : Type} {x y : Run α} {f g : α → Run β},
    call s x y → (∀ a, call s (f a) (g a)) → call s (x >>= f) (y >>= g)
  code_bind : ∀ {s : Sites} {α β : Type} {x y : Run α} {f g : α → Run β},
    code s x y → (∀ a, code s (f a) (g a)) → code s (x >>= f) (y >>= g)
  call_exhausted : ∀ {s : Sites} {α : Type}, call s (Run.exhausted : Run α) Run.exhausted
  call_fail : ∀ {s : Sites} {α : Type} {p : Position} (fault : Fault),
    s.fails p → call s (Run.fail p fault : Run α) (Run.fail p fault)
  call_attempt : ∀ {s : Sites} {α : Type} {p : Position} (operation : Store → Attempt α),
    s.fails p → call s (Run.attempt p operation) (Run.attempt p operation)
  call_make : ∀ {s : Sites} (create : Store → Value × Store),
    call s (Run.make create) (Run.make create)
  call_writeLine : ∀ {s : Sites} (line : String), call s (Run.writeLine line) (Run.writeLine line)
  call_readLine : ∀ {s : Sites}, call s Run.readLine Run.readLine
  /-- A callee of the first table is the same in the second. -/
  callee : ∀ {name : String} {count : Nat} {f : Callee},
    t.callee name count = .ok f → u.callee name count = .ok f
  /-- A call that the first table refuses, whatever the second makes of it. -/
  call_refused : ∀ {s : Sites} {α : Type} {p : Position} {name : String} {count : Nat}
    {fault : Fault} (rest : Callee → Run α), s.fails p → t.callee name count = .error fault →
    call s (Run.fail p fault) (Run.check p (u.callee name count) >>= rest)
  call_enter : ∀ {s : Sites} {name : String} {p : Position} {f : Function} {args : List Value}
    {x y : Run Flow}, Intrinsic.ofName? name = none → t.find? name = some f →
    s.calls p f.arity → code f.sites x y → call s (enter name p f args x) (enter name p f args y)
  code_reference : ∀ {s : Sites} {p : Position} (word : String), s.fails p →
    code s (reference t p word) (reference u p word)
  code_scopes : ∀ {s : Sites}, code s Run.scopes Run.scopes
  code_truthy : ∀ {s : Sites} (v : Value), code s (Run.truthy v) (Run.truthy v)
  code_write : ∀ {s : Sites} (place : Place) (value : Value),
    code s (Run.write place value) (Run.write place value)
  code_define : ∀ {s : Sites} {p : Position} (name : String) (value : Value),
    s.fails p → code s (Run.define p name value) (Run.define p name value)
  code_assign : ∀ {s : Sites} (name : String) (value : Value),
    code s (Run.assign name value) (Run.assign name value)
  code_inScope : ∀ {s : Sites} {α : Type} {x y : Run α},
    code s x y → code s (Run.inScope x) (Run.inScope y)

namespace Lockstep

variable {t u : FunctionTable} (pair : Lockstep t u) {s : Sites} {α : Type}

/-! ## What code inherits from calls -/

theorem code_pure (a : α) : pair.code s (pure a : Run α) (pure a) :=
  pair.code_of_call (pair.call_pure a)

theorem code_fail {p : Position} (fault : Fault) (fails : s.fails p) :
    pair.code s (Run.fail p fault : Run α) (Run.fail p fault) :=
  pair.code_of_call (pair.call_fail fault fails)

theorem code_attempt {p : Position} (operation : Store → Attempt α) (fails : s.fails p) :
    pair.code s (Run.attempt p operation) (Run.attempt p operation) :=
  pair.code_of_call (pair.call_attempt operation fails)

/-- A call goes on when both tables have its callee. -/
theorem call_check {p : Position} {name : String} {count : Nat} {f g : Callee → Run α}
    (fails : s.fails p) (passed : ∀ c, t.callee name count = .ok c → pair.call s (f c) (g c)) :
    pair.call s (Run.check p (t.callee name count) >>= f)
      (Run.check p (u.callee name count) >>= g) := by
  cases found : t.callee name count with
  | ok c =>
      rw [pair.callee found]
      change pair.call s (f c) (g c)
      exact passed c found
  | error fault =>
      change pair.call s (Run.fail p fault) _
      exact pair.call_refused g fails found

theorem code_check {p : Position} {name : String} {count : Nat} {f g : Callee → Run α}
    (fails : s.fails p) (passed : ∀ c, t.callee name count = .ok c → pair.code s (f c) (g c)) :
    pair.code s (Run.check p (t.callee name count) >>= f)
      (Run.check p (u.callee name count) >>= g) := by
  cases found : t.callee name count with
  | ok c =>
      rw [pair.callee found]
      change pair.code s (f c) (g c)
      exact passed c found
  | error fault =>
      change pair.code s (Run.fail p fault) _
      exact pair.code_of_call (pair.call_refused g fails found)

/-! ## The parts of the evaluator, with one step more -/

/-- Every part of the evaluator that may make so many steps is related to its counterpart. -/
structure Kept (steps : Nat) : Prop where
  expr : ∀ {s : Sites} {e : Expr}, s.Covers e →
    pair.code s (Eval.expr t e steps) (Eval.expr u e steps)
  exprs : ∀ {s : Sites} {es : List Expr}, s.CoversItems es →
    pair.code s (Eval.exprs t es steps) (Eval.exprs u es steps)
  dictEntries : ∀ {s : Sites} {p : Position} {entries : List (EntryKey × Expr)}
    (filled : Dict Value), s.fails p → s.CoversEntries entries →
    pair.code s (Eval.dictEntries t p entries filled steps)
      (Eval.dictEntries u p entries filled steps)
  call : ∀ {s : Sites} {p : Position} {args : List Expr} (callee : String),
    s.calls p args.length → s.CoversItems args →
    pair.code s (Eval.call t p callee args steps) (Eval.call u p callee args steps)
  apply : ∀ {s : Sites} {p : Position} {args : List Value} (name : String),
    s.calls p args.length →
    pair.call s (Eval.apply t p name args steps) (Eval.apply u p name args steps)
  invoke : ∀ {s : Sites} {p : Position} {name : String} {count : Nat} {f : Callee}
    (args : List Value), s.calls p count → t.callee name count = .ok f →
    pair.call s (Eval.invoke t p name f args steps) (Eval.invoke u p name f args steps)
  intrinsic : ∀ {s : Sites} {p : Position} {count : Nat} {i : Intrinsic} (args : List Value),
    s.calls p count → i.accepts count = true →
    pair.call s (Eval.intrinsic t p i args steps) (Eval.intrinsic u p i args steps)
  mapItems : ∀ {s : Sites} {p : Position} (name : String) (items : List Value),
    s.calls p 1 →
    pair.call s (Eval.mapItems t p name items steps) (Eval.mapItems u p name items steps)
  mapText : ∀ {s : Sites} {p : Position} (name : String) (cs : List Char) (joined : String),
    s.calls p 1 →
    pair.call s (Eval.mapText t p name cs joined steps) (Eval.mapText u p name cs joined steps)
  statement : ∀ {s : Sites} {st : Stmt}, s.CoversStmt st →
    pair.code s (Eval.statement t st steps) (Eval.statement u st steps)
  rounds : ∀ {s : Sites} {condition step : Option Expr} {body : List Stmt},
    (∀ e ∈ condition, s.Covers e) → (∀ e ∈ step, s.Covers e) → s.CoversBlock body →
    pair.code s (Eval.rounds t condition step body steps) (Eval.rounds u condition step body steps)
  statements : ∀ {s : Sites} {body : List Stmt}, s.CoversBlock body →
    pair.code s (Eval.statements t body steps) (Eval.statements u body steps)

variable {pair} {steps : Nat}

theorem code_name (word : String) {p : Position} (fails : s.fails p) :
    pair.code s (Eval.name t p word) (Eval.name u p word) := by
  refine pair.code_bind pair.code_scopes fun scopes => ?_
  cases scopes.lookup word with
  | some value => exact pair.code_pure value
  | none => exact pair.code_reference word fails

theorem code_entryKey (key : EntryKey) {p : Position} (fails : s.fails p) :
    pair.code s (entryKey p key) (entryKey p key) := by
  cases key with
  | literal text => exact pair.code_pure text
  | name word =>
      refine pair.code_bind pair.code_scopes fun scopes => ?_
      split
      · exact pair.code_pure _
      · exact pair.code_pure _
      · exact pair.code_bind (pair.code_attempt _ fails) fun _ => pair.code_fail _ fails

/-- The same expressions over both tables. -/
def tandem (pair : Lockstep t u) (s : Sites) : Tandem (.all s) t u where
  like f g := f = g
  maps := True
  term := pair.code s
  call := pair.call s
  term_of_call := pair.code_of_call
  call_pure := pair.call_pure
  call_bind := pair.call_bind
  term_bind := pair.code_bind
  call_fail := pair.call_fail
  call_attempt := pair.call_attempt
  call_make := pair.call_make
  call_writeLine := pair.call_writeLine
  call_readLine := pair.call_readLine
  term_write := pair.code_write
  term_name own := code_name _ own.1
  term_entryKey own _ := code_entryKey _ own.1
  term_assign value _ := pair.code_assign _ value
  term_callee own alike := by
    refine pair.code_bind pair.code_scopes fun scopes => ?_
    exact pair.code_check own.1 fun f found => alike found (.refl (fun _ => rfl) trivial f)
  call_callee _ calls alike :=
    pair.call_check (s.fails_of_calls calls) fun f found =>
      alike found (.refl (fun _ => rfl) trivial f)

/-- The same code over both tables. -/
def convoy (pair : Lockstep t u) : Convoy t u where
  tandem := pair.tandem
  code := pair.code
  code_of_term related := related
  code_bind := pair.code_bind
  code_define := pair.code_define
  term_truthy := pair.code_truthy
  term_inScope := pair.code_inScope

theorem enters (kept : pair.convoy.Kept steps steps) (s : Sites) :
    (pair.tandem s).Enters steps steps := by
  rintro p name f _ args own known calls rfl
  exact pair.call_enter own known calls (kept.statements f.sites_covers (.refl f.body))

theorem convoy_kept (pair : Lockstep t u) : ∀ steps, pair.convoy.Kept steps steps
  | 0 => .zero fun none => none rfl ▸ pair.call_exhausted
  | steps + 1 => (convoy_kept pair steps).succ (enters (convoy_kept pair steps))

/-- **Every part of the evaluator is in step with its counterpart.** -/
theorem kept (pair : Lockstep t u) (steps : Nat) : pair.Kept steps :=
  have both := pair.convoy_kept steps
  { expr := both.expr
    exprs := (both.terms _).exprs
    dictEntries := fun filled fails =>
      (both.terms _).dictEntries filled fun entry _ => code_entryKey entry.1 fails
    call := fun _ calls => (both.terms _).call (Sites.coversNode_call calls)
    apply := fun name => (both.terms _).apply name trivial
    invoke := fun args calls found =>
      (both.terms _).invoke args calls found (.refl (fun _ => rfl) trivial _)
    intrinsic := fun args => (both.terms _).intrinsic args fun _ => trivial
    mapItems := fun name items => (both.terms _).mapItems name items trivial
    mapText := fun name cs joined => (both.terms _).mapText name cs joined trivial
    statement := fun covers => both.statement covers (.refl _)
    rounds := fun condition step body => both.rounds condition step body (.refl _)
    statements := fun covers => both.statements covers (.refl _) }

end Lockstep

end Eval

end Script
