/-
# Script.Proofs.Eval.Discipline -- what is opened is closed

However an evaluation ends, the calls that were running are running again, and the
scopes that were open are open again, with the names they had.  Only the innermost scope
may have gained names, and a call from outside does not even leave those behind.

The argument is the law `Eval.discipline`: code keeps `Scopes.Grown`, calls keep
`Scopes.Rebound`, and opening a scope turns the first into the second.  The main
statement is `restored_on_every_exit`.
-/
import Script.Proofs.Eval.Ending
import Script.Proofs.Eval.Law
import Script.Proofs.Scopes

namespace Script

set_option autoImplicit false

namespace Run

variable {α β : Type}

/-- However the computation ends, it leaves the calls as they were, and scopes related to those it
began with. -/
def Keeps (related : Scopes → Scopes → Prop) (x : Run α) : Prop :=
  ∀ s s', (x s).state? = some s' → s'.calls = s.calls ∧ related s.scopes s'.scopes

variable {related : Scopes → Scopes → Prop}

theorem Quiet.keeps {x : Run α} (quiet : x.Quiet) (refl : ∀ scopes, related scopes scopes) :
    x.Keeps related := by
  intro s s' ended
  obtain ⟨a, mid, done, calls, scopes⟩ := quiet s
  rw [done] at ended
  cases ended
  exact ⟨calls, scopes ▸ refl s.scopes⟩

theorem Keeps.imp {other : Scopes → Scopes → Prop} {x : Run α} (keeps : x.Keeps related)
    (weaker : ∀ {r s}, related r s → other r s) : x.Keeps other := by
  intro s s' ended
  obtain ⟨calls, scopes⟩ := keeps s s' ended
  exact ⟨calls, weaker scopes⟩

theorem Keeps.bind {x : Run α} {f : α → Run β}
    (trans : ∀ {r s u}, related r s → related s u → related r u) (first : x.Keeps related)
    (second : ∀ a, (f a).Keeps related) : (x >>= f).Keeps related := by
  intro s s' ended
  rcases state?_bind ended with ⟨a, mid, done, ended⟩ | ended
  · obtain ⟨calls, scopes⟩ := first s mid (by rw [done]; rfl)
    obtain ⟨calls', scopes'⟩ := second a mid s' ended
    exact ⟨calls'.trans calls, trans scopes scopes'⟩
  · exact first s s' ended

theorem keeps_fail (refl : ∀ scopes, related scopes scopes) (p : Position) (fault : Fault) :
    (fail p fault : Run α).Keeps related := by
  intro s s' ended
  cases ended
  exact ⟨rfl, refl s.scopes⟩

theorem keeps_attempt (refl : ∀ scopes, related scopes scopes) (p : Position)
    (operation : Store → Attempt α) : (attempt p operation).Keeps related := by
  intro s s' ended
  unfold attempt at ended
  split at ended <;> cases ended <;> exact ⟨rfl, refl s.scopes⟩

theorem keeps_define (p : Position) (name : String) (value : Value) :
    (define p name value).Keeps Scopes.Grown := by
  intro s s' ended
  unfold define at ended
  split at ended
  · rename_i scopes defined
    cases ended
    exact ⟨rfl, Scopes.grown_define defined⟩
  · cases ended
    exact ⟨rfl, Scopes.Grown.refl _⟩

variable {inner outer : Scopes → Scopes → Prop}

/-- Closing the scope turns what the body keeps of the scopes into what is kept of those around. -/
theorem keeps_inScope {x : Run α} (closing : ∀ {s s'}, inner s.push s' → outer s s'.pop)
    (keeps : x.Keeps inner) : (inScope x).Keeps outer := by
  intro s s' ended
  unfold inScope at ended
  rw [Outcome.state?_mapState] at ended
  obtain ⟨mid, body, rfl⟩ := Option.map_eq_some_iff.1 ended
  obtain ⟨calls, scopes⟩ := keeps _ mid body
  exact ⟨calls, closing scopes⟩

theorem keeps_inCall {frame : Frame} {x : Run α}
    (closing : ∀ {s s'}, inner s.push s' → outer s s'.pop) (keeps : x.Keeps inner) :
    (inCall frame x).Keeps outer := by
  intro s s' ended
  unfold inCall at ended
  rw [Outcome.state?_mapState] at ended
  obtain ⟨mid, body, rfl⟩ := Option.map_eq_some_iff.1 ended
  obtain ⟨calls, scopes⟩ := keeps _ mid body
  refine ⟨?_, closing scopes⟩
  change mid.calls.pop = s.calls
  rw [calls]
  exact CallStack.pop_push s.calls frame

end Run

namespace Eval

theorem keeps_bindParams (p : Position) :
    ∀ (params : List String) (args : List Value), (bindParams p params args).Keeps Scopes.Grown
  | [], _ => (Run.quiet_pure ()).keeps Scopes.Grown.refl
  | _ :: _, [] => (Run.quiet_pure ()).keeps Scopes.Grown.refl
  | param :: params, value :: values =>
      Run.Keeps.bind Scopes.Grown.trans (Run.keeps_define p param value) fun _ =>
        keeps_bindParams p params values

theorem keeps_enter {inner outer : Scopes → Scopes → Prop} {name : String} {p : Position}
    {f : Function} {args : List Value} {body : Run Flow}
    (closing : ∀ {s s'}, inner s.push s' → outer s s'.pop) (refl : ∀ s, inner s s)
    (trans : ∀ {r s u}, inner r s → inner s u → inner r u)
    (grown : ∀ {s s'}, s.Grown s' → inner s s') (keeps : body.Keeps inner) :
    (enter name p f args body).Keeps outer := by
  have params := (keeps_bindParams p f.params args).imp grown
  refine Run.keeps_inCall closing (Run.Keeps.bind trans params fun _ => ?_)
  exact Run.Keeps.bind trans keeps fun flow => (Run.quiet_pure _).keeps refl

/-- Code restores the calls and all scopes but the innermost, which grows; calls restore that one
too. -/
def discipline (t : FunctionTable) : Law t where
  code _ _ x := x.Keeps Scopes.Grown
  call _ _ x := x.Keeps Scopes.Rebound
  code_of_call keeps := keeps.imp Scopes.Rebound.grown
  call_pure a := (Run.quiet_pure a).keeps Scopes.Rebound.refl
  call_bind first second := Run.Keeps.bind Scopes.Rebound.trans first second
  code_bind first second := Run.Keeps.bind Scopes.Grown.trans first second
  call_exhausted := fun _ _ ended => by cases ended
  call_fail fault _ := Run.keeps_fail Scopes.Rebound.refl _ fault
  call_attempt operation _ := Run.keeps_attempt Scopes.Rebound.refl _ operation
  call_make create := (Run.quiet_make create).keeps Scopes.Rebound.refl
  call_writeLine line := (Run.quiet_writeLine line).keeps Scopes.Rebound.refl
  call_readLine := Run.quiet_readLine.keeps Scopes.Rebound.refl
  call_enter _ _ _ keeps :=
    keeps_enter Scopes.Grown.pop Scopes.Grown.refl Scopes.Grown.trans id keeps
  code_scopes := Run.quiet_scopes.keeps Scopes.Grown.refl
  code_truthy v := (Run.quiet_truthy v).keeps Scopes.Grown.refl
  code_write place value := (Run.quiet_write place value).keeps Scopes.Grown.refl
  code_define name value _ := Run.keeps_define _ name value
  code_assign name value := fun s s' ended => by
    cases ended
    exact ⟨rfl, s.scopes.grown_assign name value⟩
  code_inScope keeps := Run.keeps_inScope (fun grown => grown.pop.grown) keeps

/-- A call of a function from outside the program. -/
structure Request where
  name : String
  args : List Value
  position : Position

/-- The state after calls from outside, made one after the other, if each of them ends with a value
or a failure. -/
def stateAfter (t : FunctionTable) (s : State) : List Request → Option State
  | [] => some s
  | request :: rest =>
      (callFunction t request.name request.args request.position s).state?.bind fun s =>
        stateAfter t s rest

end Eval

/-- The calls and scopes after a piece of work are those before it: the same calls, as many scopes,
the names of all but the innermost unchanged and those of the innermost still there. -/
structure State.Resumes (s s' : State) : Prop where
  calls : s'.calls = s.calls
  depth : s'.scopes.depth = s.scopes.depth
  outer : s'.scopes.outer.map Scope.names = s.scopes.outer.map Scope.names
  inner : s.scopes.inner.names ⊆ s'.scopes.inner.names

namespace Eval

variable {α : Type} {s s' : State}

theorem resumes_of_keeps {x : Run α} (keeps : x.Keeps Scopes.Grown)
    (ended : (x s).state? = some s') : s.Resumes s' := by
  obtain ⟨calls, grown⟩ := keeps s s' ended
  exact ⟨calls, grown.depth, grown.outer, grown.inner⟩

theorem keeps_apply (t : FunctionTable) (position : Position) (name : String) (args : List Value)
    (steps : Nat) : (apply t position name args steps).Keeps Scopes.Rebound :=
  have calls : Sites.anywhere.calls position args.length := trivial
  ((discipline t).kept steps).apply name calls

/-- Calls from outside, failed ones included, leave a state as clean as a new one. -/
theorem clean_of_stateAfter (t : FunctionTable) :
    ∀ (requests : List Request) {s s' : State}, s.scopes = .start → s.calls = .empty →
      stateAfter t s requests = some s' → s'.scopes = .start ∧ s'.calls = .empty
  | [], s, s', scopes, calls, reached => by
      cases reached
      exact ⟨scopes, calls⟩
  | request :: rest, s, s', scopes, calls, reached => by
      obtain ⟨mid, ended, later⟩ := Option.bind_eq_some_iff.1 reached
      obtain ⟨sameCalls, rebound⟩ := keeps_apply t _ _ _ limit s mid ended
      rw [scopes] at rebound
      exact clean_of_stateAfter t rest rebound.eq_start (sameCalls.trans calls) later

/-- **However an evaluation ends, with a value, a `return` or a failure, what it opened is
closed.**  Expressions, statements, blocks and calls resume the state they began with; a call from
outside also leaves no name behind; so after any such calls a new state is as good. -/
theorem restored_on_every_exit (t : FunctionTable) :
    (∀ e steps s s', (expr t e steps s).state? = some s' → s.Resumes s') ∧
    (∀ st steps s s', (statement t st steps s).state? = some s' → s.Resumes s') ∧
    (∀ body steps s s', (statements t body steps s).state? = some s' → s.Resumes s') ∧
    (∀ position callee args steps s s',
      (call t position callee args steps s).state? = some s' → s.Resumes s') ∧
    (∀ position name args steps s s', (apply t position name args steps s).state? = some s' →
      s.Resumes s' ∧ s'.scopes.toList.map Scope.names = s.scopes.toList.map Scope.names) ∧
    (∀ input requests s, stateAfter t (.start input) requests = some s →
      s.scopes = .start ∧ s.calls = .empty ∧
        ∀ name args position, callFunction t name args position s =
          callFunction t name args position ⟨.start, .empty, s.store, s.console⟩) := by
  have kept := (discipline t).kept
  refine ⟨fun e steps s s' => ?_, fun st steps s s' => ?_, fun body steps s s' => ?_,
    fun position callee args steps s s' => ?_, fun position name args steps s s' ended => ?_,
    fun input requests s reached => ?_⟩
  · exact resumes_of_keeps ((kept steps).expr (Sites.anywhere_covers e))
  · exact resumes_of_keeps ((kept steps).statement (Sites.anywhere_coversStmt st))
  · exact resumes_of_keeps ((kept steps).statements (Sites.anywhere_coversBlock body))
  · have calls : Sites.anywhere.calls position args.length := trivial
    exact resumes_of_keeps ((kept steps).call callee calls (Sites.anywhere_coversItems args))
  · have keeps := keeps_apply t position name args steps
    exact ⟨resumes_of_keeps (keeps.imp Scopes.Rebound.grown) ended, (keeps s s' ended).2⟩
  · obtain ⟨scopes, calls⟩ := clean_of_stateAfter t requests rfl rfl reached
    refine ⟨scopes, calls, fun name args position => ?_⟩
    have clean : s = ⟨.start, .empty, s.store, s.console⟩ := by rw [← scopes, ← calls]
    rw [← clean]

/-- A function that fails inside a block inside a loop. -/
def failsInside : Function where
  name := "fails"
  params := ["x"]
  body := [.loop .start (.declare .start "i" (.name .start "x")) none none
    [.block .start [.expr (.name .start "missing")]]]
  position := .start

/-- The function above fails as a callback, and as a call from outside before another one. -/
theorem restored_after_failing_callback :
    let t : FunctionTable := ⟨[("fails", failsInside)]⟩
    let s : State := .start (.lines [])
    let body : List Stmt := [.declare .start "a" (.null .start), .expr (.call .start "map"
      [.list .start [.name .start "a"], .name .start "fails"])]
    let requests : List Request := [⟨"fails", [.null], .start⟩, ⟨"size", [.string "a"], .start⟩]
    (∃ failure s', statements t body 20 s = .failed failure s' ∧ s.Resumes s') ∧
      ∃ s', stateAfter t s requests = some s' ∧ s'.scopes = .start ∧ s'.calls = .empty := by
  intro t s body requests
  obtain ⟨-, -, blocks, -, -, outside⟩ := restored_on_every_exit t
  refine ⟨⟨_, _, rfl, blocks body 20 s _ rfl⟩, ?_⟩
  obtain ⟨scopes, calls, -⟩ := outside (.lines []) requests _ rfl
  exact ⟨_, rfl, scopes, calls⟩

end Eval

end Script
