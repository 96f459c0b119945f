/-
# Script.Proofs.Eval.Tandem -- two runs side by side

The evaluator is a dozen functions that call each other, but everything they do is made of a few
computations: operations on the state, failures, sequencing, a scope, a call.  A relation between
two computations, one over each of two tables, that these few are in and keep is kept by the whole
evaluator.

A `Tandem` is such a relation for what expressions do.  It says which nodes the expressions have
(`admits`), which functions may stand for each other (`like`), and whether callbacks are made
(`maps`).  `Tandem.Kept.succ` is one step of the evaluator: what is related when the two runs may
still make so many steps is related with one step more, provided that the bodies of the functions
called are (`Tandem.Enters`).

A `Convoy` goes on to statements.  What runs inside a scope may bind names there, and is related
by `code`; closing the scope leaves what `term` relates.  The two runs need not have the same
statements, as long as these differ in dead code only.

The numbers of steps that the two runs may make are apart from each other throughout.
-/
import Script.Eval.Evaluate
import Script.Proofs.Eval.Ending
import Script.Proofs.Eval.Sites
import Script.Proofs.Syntax.Live

namespace Script

set_option autoImplicit false

namespace FunctionTable

variable {t : FunctionTable} {name : String} {count : Nat}

theorem accepts_of_callee {i : Intrinsic} (found : t.callee name count = .ok (.intrinsic i)) :
    i.accepts count = true := by
  unfold callee at found
  split at found
  · split at found
    · cases found
      assumption
    · cases found
  · split at found
    · split at found <;> cases found
    · cases found

/-- A function of the table is called by a name that is no intrinsic's, with as many arguments as
it has parameters. -/
theorem find?_of_callee {f : Function} (found : t.callee name count = .ok (.user f)) :
    Intrinsic.ofName? name = none ∧ t.find? name = some f ∧ f.arity = count := by
  unfold callee at found
  split at found
  · split at found <;> cases found
  · rename_i own
    split at found
    · rename_i f known
      split at found
      · cases found
        exact ⟨own, known, by assumption⟩
      · cases found
    · cases found

end FunctionTable

namespace Eval

/-- A name that no function reference is bound to is called as it is written. -/
theorem target_of_unbound {scopes : Scopes} {callee : String}
    (unbound : ∀ f, scopes.lookup callee ≠ some (.function f)) :
    scopes.target callee = callee := by
  unfold Scopes.target
  split
  · rename_i f bound
    exact absurd bound (unbound f)
  · rfl

/-- The body of a function, called at a place, in the scope of the call. -/
def enter (name : String) (position : Position) (f : Function) (args : List Value)
    (body : Run Flow) : Run Value :=
  Run.inCall ⟨name, position⟩ do
    bindParams position f.params args
    return result (← body)

/-- The value of a name that no variable has. -/
def reference (t : FunctionTable) (position : Position) (word : String) : Run Value :=
  if t.names word then return .function word else Run.fail position (.undefinedVariable word)

/-- The body of a loop and its step, then what comes after them unless the body returns. -/
def round (t : FunctionTable) (step : Option Expr) (body : List Stmt) (steps : Nat)
    (further : Run Flow) : Run Flow := do
  match ← Run.inScope (Eval.statements t body steps) with
  | .returned value => return .returned value
  | .next => do
      match step with
      | none => pure ()
      | some e => do
          let _ ← Eval.expr t e steps
      further

/-- What is called over one table and what is called in its place over another. -/
inductive Matches (like : Function → Function → Prop) (maps : Prop) : Callee → Callee → Prop
  | intrinsic {i : Intrinsic} (callback : i = .map → maps) :
      Matches like maps (.intrinsic i) (.intrinsic i)
  | user {f g : Function} (alike : like f g) : Matches like maps (.user f) (.user g)

theorem Matches.refl {like : Function → Function → Prop} {maps : Prop} (same : ∀ f, like f f)
    (mapped : maps) : ∀ c, Matches like maps c c
  | .intrinsic _ => .intrinsic fun _ => mapped
  | .user f => .user (same f)

/-- The nodes that expressions with the sites may have. -/
structure Admission (s : Sites) where
  admits : Expr → Prop
  covers : ∀ {e : Expr}, admits e → s.CoversNode e

/-- All nodes that keep to the sites. -/
def Admission.all (s : Sites) : Admission s :=
  ⟨s.CoversNode, id⟩

/-- A relation between computations over two tables that what expressions do is in and keeps. -/
structure Tandem {s : Sites} (nodes : Admission s) (t u : FunctionTable) where
  /-- Which function over the second table may be called in place of one over the first. -/
  like : Function → Function → Prop
  /-- Whether `map` is called. -/
  maps : Prop
  /-- Between the values of expressions. -/
  term : {α : Type} → Run α → Run α → Prop
  /-- Between what calls do. -/
  call : {α : Type} → Run α → Run α → Prop
  term_of_call : ∀ {α : Type} {x y : Run α}, call x y → term x y
  call_pure : ∀ {α : Type} (a : α), call (pure a : Run α) (pure a)
  call_bind : ∀ {α β : Type} {x y : Run α} {f g : α → Run β},
    call x y → (∀ a, call (f a) (g a)) → call (x >>= f) (y >>= g)
  term_bind : ∀ {α β : Type} {x y : Run α} {f g : α → Run β},
    term x y → (∀ a, term (f a) (g a)) → term (x >>= f) (y >>= g)
  call_fail : ∀ {α : Type} {p : Position} (fault : Fault), s.fails p →
    call (Run.fail p fault : Run α) (Run.fail p fault)
  call_attempt : ∀ {α : Type} {p : Position} (operation : Store → Attempt α), s.fails p →
    call (Run.attempt p operation) (Run.attempt p operation)
  call_make : ∀ (create : Store → Value × Store), call (Run.make create) (Run.make create)
  call_writeLine : ∀ (line : String), call (Run.writeLine line) (Run.writeLine line)
  call_readLine : call Run.readLine Run.readLine
  term_write : ∀ (place : Place) (value : Value),
    term (Run.write place value) (Run.write place value)
  term_name : ∀ {p : Position} {word : String}, nodes.admits (.name p word) →
    term (Eval.name t p word) (Eval.name u p word)
  term_entryKey : ∀ {p : Position} {entries : List (EntryKey × Expr)} {entry : EntryKey × Expr},
    nodes.admits (.dict p entries) → entry ∈ entries →
    term (Eval.entryKey p entry.1) (Eval.entryKey p entry.1)
  term_assign : ∀ {p : Position} {word : String} {e : Expr} (value : Value),
    nodes.admits (.assign p word e) → term (Run.assign word value) (Run.assign word value)
  /-- Written calls look up what they call, then go on with that. -/
  term_callee : ∀ {α : Type} {p : Position} {callee : String} {args : List Expr}
    {x y : String → Callee → Run α}, nodes.admits (.call p callee args) →
    (∀ {target f g}, t.callee target args.length = .ok f → Matches like maps f g →
      term (x target f) (y target g)) →
    term
      (Run.scopes >>= fun scopes =>
        Run.check p (t.callee (scopes.target callee) args.length) >>= x (scopes.target callee))
      (Run.scopes >>= fun scopes =>
        Run.check p (u.callee (scopes.target callee) args.length) >>= y (scopes.target callee))
  /-- So do the calls that `map` makes. -/
  call_callee : ∀ {α : Type} {p : Position} {name : String} {count : Nat} {x y : Callee → Run α},
    maps → s.calls p count →
    (∀ {f g}, t.callee name count = .ok f → Matches like maps f g → call (x f) (y g)) →
    call (Run.check p (t.callee name count) >>= x) (Run.check p (u.callee name count) >>= y)

namespace Tandem

variable {s : Sites} {nodes : Admission s} {t u : FunctionTable} (pair : Tandem nodes t u)
  {n m : Nat} {p : Position}

/-- Every part of the evaluator that has to do with expressions is related to its counterpart, when
the two runs may make so many steps. -/
structure Kept (n m : Nat) : Prop where
  expr : ∀ {e : Expr}, e.All nodes.admits → pair.term (Eval.expr t e n) (Eval.expr u e m)
  exprs : ∀ {es : List Expr}, Expr.AllItems nodes.admits es →
    pair.term (Eval.exprs t es n) (Eval.exprs u es m)
  dictEntries : ∀ {p : Position} {entries : List (EntryKey × Expr)} (filled : Dict Value),
    (∀ entry ∈ entries, pair.term (Eval.entryKey p entry.1) (Eval.entryKey p entry.1)) →
    Expr.AllEntries nodes.admits entries →
    pair.term (Eval.dictEntries t p entries filled n) (Eval.dictEntries u p entries filled m)
  call : ∀ {p : Position} {callee : String} {args : List Expr},
    nodes.admits (.call p callee args) → Expr.AllItems nodes.admits args →
    pair.term (Eval.call t p callee args n) (Eval.call u p callee args m)
  apply : ∀ {p : Position} {args : List Value} (name : String), pair.maps →
    s.calls p args.length →
    pair.call (Eval.apply t p name args n) (Eval.apply u p name args m)
  invoke : ∀ {p : Position} {name : String} {count : Nat} {f g : Callee} (args : List Value),
    s.calls p count → t.callee name count = .ok f → Matches pair.like pair.maps f g →
    pair.call (Eval.invoke t p name f args n) (Eval.invoke u p name g args m)
  intrinsic : ∀ {p : Position} {count : Nat} {i : Intrinsic} (args : List Value),
    (i = .map → pair.maps) → s.calls p count → i.accepts count = true →
    pair.call (Eval.intrinsic t p i args n) (Eval.intrinsic u p i args m)
  mapItems : ∀ {p : Position} (name : String) (items : List Value), pair.maps → s.calls p 1 →
    pair.call (Eval.mapItems t p name items n) (Eval.mapItems u p name items m)
  mapText : ∀ {p : Position} (name : String) (cs : List Char) (joined : String), pair.maps →
    s.calls p 1 →
    pair.call (Eval.mapText t p name cs joined n) (Eval.mapText u p name cs joined m)

/-- Calls of functions that may stand for each other are related. -/
def Enters (n m : Nat) : Prop :=
  ∀ {p : Position} {name : String} {f g : Function} (args : List Value),
    Intrinsic.ofName? name = none → t.find? name = some f → s.calls p f.arity → pair.like f g →
    pair.call (enter name p f args (Eval.statements t f.body n))
      (enter name p g args (Eval.statements u g.body m))

variable {pair}

/-! ## What terms inherit from calls -/

theorem term_pure {α : Type} (a : α) : pair.term (pure a : Run α) (pure a) :=
  pair.term_of_call (pair.call_pure a)

theorem term_fail {α : Type} (fault : Fault) (fails : s.fails p) :
    pair.term (Run.fail p fault : Run α) (Run.fail p fault) :=
  pair.term_of_call (pair.call_fail fault fails)

theorem term_attempt {α : Type} (operation : Store → Attempt α) (fails : s.fails p) :
    pair.term (Run.attempt p operation) (Run.attempt p operation) :=
  pair.term_of_call (pair.call_attempt operation fails)

theorem term_make (create : Store → Value × Store) :
    pair.term (Run.make create) (Run.make create) :=
  pair.term_of_call (pair.call_make create)

theorem call_callbackName (callback : Value) (fails : s.fails p) :
    pair.call (callbackName p callback) (callbackName p callback) := by
  unfold callbackName
  split
  · exact pair.call_pure _
  · exact pair.call_pure _
  · exact pair.call_fail _ fails

/-! ## One step more -/

theorem expr_succ (kept : pair.Kept n m) {e : Expr} (all : e.All nodes.admits) :
    pair.term (Eval.expr t e (n + 1)) (Eval.expr u e (m + 1)) := by
  have fails : s.fails e.position := (nodes.covers all.self).1
  cases e with
  | number _ _ | string _ _ | bool _ _ | null _ | typeName _ _ =>
      simp only [Eval.expr]
      exact term_pure _
  | list p items =>
      simp only [Eval.expr]
      exact pair.term_bind (kept.exprs (Expr.all_list.1 all).2) fun values => term_make _
  | dict p entries =>
      obtain ⟨own, inside⟩ := Expr.all_dict.1 all
      have keys := kept.dictEntries .empty (fun entry => pair.term_entryKey own) inside
      simp only [Eval.expr]
      exact pair.term_bind keys fun filled => term_make _
  | name p word =>
      simp only [Eval.expr]
      exact pair.term_name all.self
  | assign p word value =>
      obtain ⟨own, inside⟩ := Expr.all_assign.1 all
      simp only [Eval.expr]
      refine pair.term_bind (kept.expr inside) fun v => ?_
      exact pair.term_bind (pair.term_assign v own) fun _ => term_pure v
  | binary p op left right =>
      obtain ⟨-, left, right⟩ := Expr.all_binary.1 all
      simp only [Eval.expr]
      refine pair.term_bind (kept.expr left) fun v => ?_
      refine pair.term_bind (kept.expr right) fun w => ?_
      exact pair.term_bind (term_attempt _ fails) fun product => term_make _
  | unary p op operand =>
      simp only [Eval.expr]
      exact pair.term_bind (kept.expr (Expr.all_unary.1 all).2) fun v => term_attempt _ fails
  | index p target i =>
      obtain ⟨-, target, i⟩ := Expr.all_index.1 all
      simp only [Eval.expr]
      refine pair.term_bind (kept.expr target) fun v => ?_
      exact pair.term_bind (kept.expr i) fun i => term_attempt _ fails
  | setIndex p target i value =>
      obtain ⟨-, ⟨target, i⟩, value⟩ := Expr.all_setIndex.1 all
      simp only [Eval.expr]
      refine pair.term_bind (kept.expr target) fun v => ?_
      refine pair.term_bind (kept.expr i) fun i => ?_
      refine pair.term_bind (kept.expr value) fun w => ?_
      refine pair.term_bind (term_attempt _ fails) fun place => ?_
      exact pair.term_bind (pair.term_write place w) fun _ => term_pure w
  | field p target word =>
      simp only [Eval.expr]
      exact pair.term_bind (kept.expr (Expr.all_field.1 all).2) fun v => term_attempt _ fails
  | method p target word args =>
      simp only [Eval.expr]
      exact pair.term_bind (kept.expr (Expr.all_method.1 all).2.1) fun _ => term_fail _ fails
  | call p callee args =>
      obtain ⟨own, inside⟩ := Expr.all_call.1 all
      simp only [Eval.expr]
      exact kept.call own inside

theorem exprs_succ (kept : pair.Kept n m) {es : List Expr}
    (all : Expr.AllItems nodes.admits es) :
    pair.term (Eval.exprs t es (n + 1)) (Eval.exprs u es (m + 1)) := by
  cases es with
  | nil =>
      simp only [Eval.exprs]
      exact term_pure _
  | cons e rest =>
      obtain ⟨first, others⟩ := Expr.allItems_cons.1 all
      simp only [Eval.exprs]
      refine pair.term_bind (kept.expr first) fun value => ?_
      exact pair.term_bind (kept.exprs others) fun values => term_pure _

theorem dictEntries_succ (kept : pair.Kept n m) {entries : List (EntryKey × Expr)}
    (filled : Dict Value)
    (keys : ∀ entry ∈ entries, pair.term (Eval.entryKey p entry.1) (Eval.entryKey p entry.1))
    (all : Expr.AllEntries nodes.admits entries) :
    pair.term (Eval.dictEntries t p entries filled (n + 1))
      (Eval.dictEntries u p entries filled (m + 1)) := by
  cases entries with
  | nil =>
      simp only [Eval.dictEntries]
      exact term_pure _
  | cons entry rest =>
      obtain ⟨key, e⟩ := entry
      obtain ⟨first, others⟩ := Expr.allEntries_cons.1 all
      obtain ⟨own, later⟩ := List.forall_mem_cons.1 keys
      simp only [Eval.dictEntries]
      refine pair.term_bind own fun key => ?_
      refine pair.term_bind (kept.expr first) fun value => ?_
      exact kept.dictEntries _ later others

theorem call_succ (kept : pair.Kept n m) {callee : String} {args : List Expr}
    (own : nodes.admits (.call p callee args)) (all : Expr.AllItems nodes.admits args) :
    pair.term (Eval.call t p callee args (n + 1)) (Eval.call u p callee args (m + 1)) := by
  have calls : s.calls p args.length := (nodes.covers own).2 p callee args rfl
  simp only [Eval.call]
  refine pair.term_callee (x := fun target f => Eval.exprs t args n >>= fun values =>
      Eval.invoke t p target f values n)
    (y := fun target f => Eval.exprs u args m >>= fun values =>
      Eval.invoke u p target f values m) own fun found alike => ?_
  refine pair.term_bind (kept.exprs all) fun values => ?_
  exact pair.term_of_call (kept.invoke values calls found alike)

theorem apply_succ (kept : pair.Kept n m) {args : List Value} (name : String) (maps : pair.maps)
    (calls : s.calls p args.length) :
    pair.call (Eval.apply t p name args (n + 1)) (Eval.apply u p name args (m + 1)) := by
  simp only [Eval.apply]
  exact pair.call_callee maps calls fun found alike => kept.invoke args calls found alike

theorem invoke_succ (kept : pair.Kept n m) (enters : pair.Enters n m) {name : String}
    {count : Nat} {f g : Callee} (args : List Value) (calls : s.calls p count)
    (found : t.callee name count = .ok f) (alike : Matches pair.like pair.maps f g) :
    pair.call (Eval.invoke t p name f args (n + 1)) (Eval.invoke u p name g args (m + 1)) := by
  cases alike with
  | intrinsic callback =>
      simp only [Eval.invoke]
      exact kept.intrinsic args callback calls (FunctionTable.accepts_of_callee found)
  | user alike =>
      obtain ⟨own, known, arity⟩ := FunctionTable.find?_of_callee found
      simp only [Eval.invoke]
      exact enters args own known (arity ▸ calls) alike

theorem intrinsic_succ (kept : pair.Kept n m) {count : Nat} {i : Intrinsic} (args : List Value)
    (callback : i = .map → pair.maps) (calls : s.calls p count)
    (accepts : i.accepts count = true) :
    pair.call (Eval.intrinsic t p i args (n + 1)) (Eval.intrinsic u p i args (m + 1)) := by
  have fails := s.fails_of_calls calls
  rw [Eval.intrinsic.eq_def, Eval.intrinsic.eq_def]
  dsimp only
  split
  · exact pair.call_bind (pair.call_writeLine _) fun _ => pair.call_pure _
  · refine pair.call_bind (pair.call_attempt _ fails) fun line => ?_
    exact pair.call_bind (pair.call_writeLine line) fun _ => pair.call_pure _
  · exact pair.call_bind pair.call_readLine fun line => pair.call_pure _
  · exact pair.call_bind (pair.call_attempt _ fails) fun n => pair.call_pure _
  · -- `map` is called with two arguments, so its callback may be called with one.
    have two : count = 2 := by simpa [Intrinsic.accepts] using accepts
    have one : s.calls p 1 := s.callback (two ▸ calls)
    have maps := callback rfl
    refine pair.call_bind (call_callbackName _ fails) fun name => ?_
    split
    · refine pair.call_bind (pair.call_attempt _ fails) fun items => ?_
      exact pair.call_bind (kept.mapItems name _ maps one) fun results => pair.call_make _
    · exact pair.call_bind (kept.mapText name _ _ maps one) fun text => pair.call_pure _
    · exact pair.call_fail _ fails
  · exact pair.call_bind (pair.call_attempt _ fails) fun x => pair.call_pure _
  · exact pair.call_bind (pair.call_attempt _ fails) fun text => pair.call_pure _
  · exact pair.call_bind (pair.call_attempt _ fails) fun tag => pair.call_pure _
  · exact pair.call_fail _ fails

theorem mapItems_succ (kept : pair.Kept n m) (name : String) (items : List Value)
    (maps : pair.maps) (calls : s.calls p 1) :
    pair.call (Eval.mapItems t p name items (n + 1))
      (Eval.mapItems u p name items (m + 1)) := by
  cases items with
  | nil =>
      simp only [Eval.mapItems]
      exact pair.call_pure _
  | cons item rest =>
      simp only [Eval.mapItems]
      refine pair.call_bind (kept.apply name maps calls) fun value => ?_
      exact pair.call_bind (kept.mapItems name rest maps calls) fun values => pair.call_pure _

theorem mapText_succ (kept : pair.Kept n m) (name : String) (cs : List Char) (joined : String)
    (maps : pair.maps) (calls : s.calls p 1) :
    pair.call (Eval.mapText t p name cs joined (n + 1))
      (Eval.mapText u p name cs joined (m + 1)) := by
  have fails := s.fails_of_calls calls
  cases cs with
  | nil =>
      simp only [Eval.mapText]
      exact pair.call_pure _
  | cons c rest =>
      simp only [Eval.mapText]
      refine pair.call_bind (kept.apply name maps calls) fun value => ?_
      refine pair.call_bind (pair.call_attempt _ fails) fun text => ?_
      exact kept.mapText name rest _ maps calls

/-- **One step more of what expressions do.** -/
theorem Kept.succ (kept : pair.Kept n m) (enters : pair.Enters n m) :
    pair.Kept (n + 1) (m + 1) where
  expr := expr_succ kept
  exprs := exprs_succ kept
  dictEntries := dictEntries_succ kept
  call := call_succ kept
  apply := apply_succ kept
  invoke := invoke_succ kept enters
  intrinsic := intrinsic_succ kept
  mapItems := mapItems_succ kept
  mapText := mapText_succ kept

/-- With no steps left the first run does nothing, which is related to whatever the second does. -/
theorem Kept.zero (idle : ∀ {α : Type} {y : Run α}, (m = 0 → y = Run.exhausted) →
    pair.call Run.exhausted y) : pair.Kept 0 m where
  expr _ := pair.term_of_call (idle (by rintro rfl; rfl))
  exprs _ := pair.term_of_call (idle (by rintro rfl; rfl))
  dictEntries _ _ _ := pair.term_of_call (idle (by rintro rfl; rfl))
  call _ _ := pair.term_of_call (idle (by rintro rfl; rfl))
  apply _ _ _ := idle (by rintro rfl; rfl)
  invoke _ _ _ _ := idle (by rintro rfl; rfl)
  intrinsic _ _ _ _ := idle (by rintro rfl; rfl)
  mapItems _ _ _ _ := idle (by rintro rfl; rfl)
  mapText _ _ _ _ _ := idle (by rintro rfl; rfl)

end Tandem

/-- A relation between computations over two tables that all the evaluator does is in and keeps. -/
structure Convoy (t u : FunctionTable) where
  /-- For expressions with the sites. -/
  tandem : (s : Sites) → Tandem (.all s) t u
  /-- Between what statements do, which may bind names in the scope they run in. -/
  code : Sites → {α : Type} → Run α → Run α → Prop
  code_of_term : ∀ {s : Sites} {α : Type} {x y : Run α}, (tandem s).term x y → code s x y
  code_bind : ∀ {s : Sites} {α β : Type} {x y : Run α} {f g : α → Run β},
    code s x y → (∀ a, code s (f a) (g a)) → code s (x >>= f) (y >>= g)
  code_define : ∀ {s : Sites} {p : Position} (name : String) (value : Value), s.fails p →
    code s (Run.define p name value) (Run.define p name value)
  term_truthy : ∀ {s : Sites} (v : Value), (tandem s).term (Run.truthy v) (Run.truthy v)
  term_inScope : ∀ {s : Sites} {α : Type} {x y : Run α}, code s x y →
    (tandem s).term (Run.inScope x) (Run.inScope y)

namespace Convoy

variable {t u : FunctionTable} (pair : Convoy t u) {n m : Nat} {s : Sites}

/-- Every part of the evaluator is related to its counterpart, when the two runs may make so many
steps. -/
structure Kept (n m : Nat) : Prop where
  terms : ∀ s, (pair.tandem s).Kept n m
  statement : ∀ {s : Sites} {st st' : Stmt}, s.CoversStmt st → st.SameLive st' →
    pair.code s (Eval.statement t st n) (Eval.statement u st' m)
  rounds : ∀ {s : Sites} {condition step : Option Expr} {body body' : List Stmt},
    (∀ e ∈ condition, s.Covers e) → (∀ e ∈ step, s.Covers e) → s.CoversBlock body →
    Stmt.SameBlock body body' →
    (pair.tandem s).term (Eval.rounds t condition step body n)
      (Eval.rounds u condition step body' m)
  statements : ∀ {s : Sites} {body body' : List Stmt}, s.CoversBlock body →
    Stmt.SameBlock body body' →
    pair.code s (Eval.statements t body n) (Eval.statements u body' m)

variable {pair}

theorem code_pure {α : Type} (a : α) : pair.code s (pure a : Run α) (pure a) :=
  pair.code_of_term (Tandem.term_pure a)

theorem Kept.term (kept : pair.Kept n m) {e : Expr} (covers : s.Covers e) :
    (pair.tandem s).term (Eval.expr t e n) (Eval.expr u e m) :=
  (kept.terms s).expr covers

theorem Kept.expr (kept : pair.Kept n m) {e : Expr} (covers : s.Covers e) :
    pair.code s (Eval.expr t e n) (Eval.expr u e m) :=
  pair.code_of_term (kept.term covers)

/-- A block that comes first to a `return` ends as that does. -/
theorem statements_return (t : FunctionTable) (p : Position) (value : Option Expr)
    (rest : List Stmt) : ∀ n, Eval.statements t (.return p value :: rest) (n + 1) =
      Eval.statement t (.return p value) n
  | 0 => rfl
  | n + 1 => by
      simp only [Eval.statements, Eval.statement]
      cases value with
      | none => rfl
      | some e => simp only [bind_assoc, pure_bind]

theorem statement_succ (kept : pair.Kept n m) {st st' : Stmt} (covers : s.CoversStmt st)
    (same : st.SameLive st') :
    pair.code s (Eval.statement t st (n + 1)) (Eval.statement u st' (m + 1)) := by
  obtain ⟨fails, operands⟩ := covers.step
  cases same with
  | declare p word value =>
      simp only [Eval.statement]
      refine pair.code_bind (kept.expr (operands value (by simp [Stmt.operands]))) fun v => ?_
      exact pair.code_bind (pair.code_define word v fails) fun _ => code_pure _
  | expr e =>
      simp only [Eval.statement]
      exact pair.code_bind (kept.expr (operands e (by simp [Stmt.operands]))) fun _ => code_pure _
  | «return» p value =>
      cases value with
      | none =>
          simp only [Eval.statement]
          exact code_pure _
      | some e =>
          simp only [Eval.statement]
          exact pair.code_bind (kept.expr (operands e (by simp [Stmt.operands]))) fun v =>
            code_pure _
  | branch p condition same =>
      have holds := kept.expr (operands condition (by simp [Stmt.operands]))
      have yes := kept.statements covers.branch.1 same
      simp only [Eval.statement]
      refine pair.code_bind holds fun v => ?_
      refine pair.code_bind (pair.code_of_term (pair.term_truthy v)) fun holds => ?_
      split
      · exact pair.code_of_term (pair.term_inScope yes)
      · exact code_pure _
  | branchElse p condition same same' =>
      have holds := kept.expr (operands condition (by simp [Stmt.operands]))
      have yes := kept.statements covers.branch.1 same
      have no := kept.statements (covers.branch.2 _ rfl) same'
      simp only [Eval.statement]
      refine pair.code_bind holds fun v => ?_
      refine pair.code_bind (pair.code_of_term (pair.term_truthy v)) fun holds => ?_
      split
      · exact pair.code_of_term (pair.term_inScope yes)
      · exact pair.code_of_term (pair.term_inScope no)
  | loop p start condition step same =>
      obtain ⟨first, condition, step, body⟩ := covers.loop
      have rounds := pair.code_of_term (kept.rounds condition step body same)
      simp only [Eval.statement]
      refine pair.code_of_term (pair.term_inScope ?_)
      cases start with
      | nothing => exact rounds
      | declare q word value =>
          obtain ⟨fails, operands⟩ := first _ rfl
          refine pair.code_bind (kept.expr (operands value (by simp [Stmt.operands]))) fun v => ?_
          exact pair.code_bind (pair.code_define word v fails) fun _ => rounds
      | expr e =>
          have covered := (first _ rfl).2 e (by simp [Stmt.operands])
          exact pair.code_bind (kept.expr covered) fun _ => rounds
  | block p same =>
      simp only [Eval.statement]
      exact pair.code_of_term (pair.term_inScope (kept.statements covers.block same))

theorem term_round (kept : pair.Kept n m) {step : Option Expr} {body body' : List Stmt}
    {further further' : Run Flow} (stepCovers : ∀ e ∈ step, s.Covers e)
    (bodyCovers : s.CoversBlock body) (same : Stmt.SameBlock body body')
    (later : (pair.tandem s).term further further') :
    (pair.tandem s).term (Eval.round t step body n further)
      (Eval.round u step body' m further') := by
  have inside := pair.term_inScope (kept.statements bodyCovers same)
  refine (pair.tandem s).term_bind inside fun flow => ?_
  cases flow with
  | returned value => exact Tandem.term_pure _
  | next =>
      cases step with
      | none => exact later
      | some e => exact (pair.tandem s).term_bind (kept.term (stepCovers e rfl)) fun _ => later

theorem rounds_succ (kept : pair.Kept n m) {condition step : Option Expr}
    {body body' : List Stmt} (conditionCovers : ∀ e ∈ condition, s.Covers e)
    (stepCovers : ∀ e ∈ step, s.Covers e) (bodyCovers : s.CoversBlock body)
    (same : Stmt.SameBlock body body') :
    (pair.tandem s).term (Eval.rounds t condition step body (n + 1))
      (Eval.rounds u condition step body' (m + 1)) := by
  have further := kept.rounds conditionCovers stepCovers bodyCovers same
  have round := term_round kept stepCovers bodyCovers same further
  rw [Eval.rounds.eq_def, Eval.rounds.eq_def]
  dsimp only
  cases condition with
  | none => exact round
  | some e =>
      refine (pair.tandem s).term_bind (kept.term (conditionCovers e rfl)) fun v => ?_
      refine (pair.tandem s).term_bind (pair.term_truthy v) fun holds => ?_
      cases holds with
      | true => exact round
      | false => exact Tandem.term_pure _

theorem statements_succ (kept : pair.Kept n m) {body body' : List Stmt}
    (covers : s.CoversBlock body) (same : Stmt.SameBlock body body') :
    pair.code s (Eval.statements t body (n + 1)) (Eval.statements u body' (m + 1)) := by
  cases same with
  | nil =>
      simp only [Eval.statements]
      exact code_pure _
  | cons same later =>
      obtain ⟨own, others⟩ := Sites.coversBlock_cons.1 covers
      simp only [Eval.statements]
      refine pair.code_bind (kept.statement own same) fun flow => ?_
      cases flow with
      | returned value => exact code_pure _
      | next => exact kept.statements others later
  | dead p value rest rest' =>
      rw [statements_return, statements_return]
      exact kept.statement (Sites.coversBlock_cons.1 covers).1 (.return p value)

/-- **One step more of all that the evaluator does.** -/
theorem Kept.succ (kept : pair.Kept n m) (enters : ∀ s, (pair.tandem s).Enters n m) :
    pair.Kept (n + 1) (m + 1) where
  terms s := (kept.terms s).succ (enters s)
  statement := statement_succ kept
  rounds := rounds_succ kept
  statements := statements_succ kept

theorem Kept.zero (idle : ∀ {s : Sites} {α : Type} {y : Run α}, (m = 0 → y = Run.exhausted) →
    (pair.tandem s).call Run.exhausted y) : pair.Kept 0 m where
  terms _ := .zero idle
  statement _ _ := pair.code_of_term ((pair.tandem _).term_of_call (idle (by rintro rfl; rfl)))
  rounds _ _ _ _ := (pair.tandem _).term_of_call (idle (by rintro rfl; rfl))
  statements _ _ := pair.code_of_term ((pair.tandem _).term_of_call (idle (by rintro rfl; rfl)))

end Convoy

end Eval

end Script
