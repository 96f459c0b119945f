/-
# Script.Proofs.Eval.Backtrace -- a trace is a chain of calls in the text

While a program runs, its calls form a `Chain`: it begins with `main`, called from the
start of the text, and each further call stands in the body of the function called
before it.  A failure copies the calls that run at that moment, so its trace is such a
chain, and its place is a node of the innermost body (`Explains`).

One failure stands outside the body it belongs to.  A parameter that occurs twice is
found when the call is already running, and is reported at the place of the call.

The argument is the law `Eval.tracing`; the main statement is `trace_is_chain_of_calls`.
-/
import Script.Proofs.Eval.Discipline

namespace Script

set_option autoImplicit false

/-- The function that runs when a call by the name is running. -/
def FunctionTable.Runs (t : FunctionTable) (name : String) (f : Function) : Prop :=
  Intrinsic.ofName? name = none ∧ t.find? name = some f

/-- A call at `p` in the body of `caller` can start `callee`: it has as many arguments as `callee`
has parameters, or it is one of `map`, with two, and `callee` takes one item. -/
def Function.CallsAt (caller : Function) (p : Position) (callee : Function) : Prop :=
  caller.HasCall p callee.arity ∨ caller.HasCall p 2 ∧ callee.arity = 1

/-- The calls lead from `main` to the function `f`, each standing in the body of the one before. -/
inductive Chain (t : FunctionTable) : List Frame → Function → Prop where
  | main {f : Function} (runs : t.Runs "main" f) : Chain t [⟨"main", .start⟩] f
  | call {frames : List Frame} {caller f : Function} {name : String} {p : Position}
      (outer : Chain t frames caller) (runs : t.Runs name f) (calls : caller.CallsAt p f) :
      Chain t (⟨name, p⟩ :: frames) f

namespace Chain

variable {t : FunctionTable} {frames : List Frame} {f : Function}

theorem getLast? (chain : Chain t frames f) : frames.getLast? = some ⟨"main", .start⟩ := by
  induction chain with
  | main runs => rfl
  | call outer runs calls ih => simp [List.getLast?_cons, ih]

/-- The function at the end of the chain is the one of the innermost call. -/
theorem head? (chain : Chain t frames f) :
    ∃ frame, frames.head? = some frame ∧ t.Runs frame.name f := by
  cases chain with
  | main runs => exact ⟨_, rfl, runs⟩
  | call outer runs calls => exact ⟨_, rfl, runs⟩

theorem runs (chain : Chain t frames f) : ∀ frame ∈ frames, ∃ g, t.Runs frame.name g := by
  induction chain with
  | main runs =>
      intro frame member
      obtain rfl := List.mem_singleton.1 member
      exact ⟨_, runs⟩
  | call outer runs calls ih =>
      intro frame member
      rcases List.mem_cons.1 member with rfl | member
      · exact ⟨_, runs⟩
      · exact ih frame member

/-- Each call stands in the body of the function called before it. -/
theorem link (chain : Chain t frames f) :
    ∀ (k : Nat) (callee caller : Frame), frames[k]? = some callee → frames[k + 1]? = some caller →
      ∃ g h, t.find? callee.name = some g ∧ t.find? caller.name = some h ∧
        h.CallsAt callee.position g := by
  induction chain with
  | main runs =>
      intro k callee caller _ impossible
      cases impossible
  | call outer runs calls ih =>
      intro k callee caller found next
      cases k with
      | zero =>
          cases found
          obtain ⟨frame, first, known⟩ := outer.head?
          have same : frame = caller := by
            rw [List.head?_eq_getElem?] at first
            exact Option.some.inj (first.symm.trans next)
          subst same
          exact ⟨_, _, runs.2, known.2, calls⟩
      | succ k => exact ih k callee caller found next

end Chain

/-- A parameter that occurs twice in the function called last is reported at the place of that
call. -/
def Failure.RepeatsParameter (failure : Failure) (f : Function) : Prop :=
  ∃ frame param, failure.trace.head? = some frame ∧ failure.position = frame.position ∧
    failure.fault = .alreadyDefined param ∧ 2 ≤ f.params.count param

/-- The trace is a chain of calls, and the failure stands in the body of the innermost function. -/
def Failure.Explains (t : FunctionTable) (failure : Failure) : Prop :=
  ∃ f, Chain t failure.trace f ∧ (f.HasNode failure.position ∨ failure.RepeatsParameter f)

namespace Eval

variable {t : FunctionTable} {α β : Type}

/-- Run inside a function with these sites, the computation leaves the calls as they were, and its
failure is explained by them. -/
structure Traced (t : FunctionTable) (sites : Sites) (x : Run α) : Prop where
  keeps : x.Keeps fun _ _ => True
  explains : ∀ s failure s' f, x s = .failed failure s' → f.sites = sites →
    Chain t s.calls.frames f → failure.Explains t

variable {sites : Sites}

theorem Traced.calls {x : Run α} {s s' : State} {a : α} (traced : Traced t sites x)
    (done : x s = .done a s') : s'.calls = s.calls :=
  (traced.keeps s s' (by rw [done]; rfl)).1

theorem Traced.of_quiet {x : Run α} (quiet : x.Quiet) : Traced t sites x where
  keeps := quiet.keeps fun _ => trivial
  explains s failure s' f failed := by
    obtain ⟨a, mid, done, -⟩ := quiet s
    rw [done] at failed
    cases failed

/-- A failure at a site of the running function. -/
theorem explains_of_fails {s : State} {f : Function} {p : Position} (fault : Fault)
    (fails : f.sites.fails p) (chain : Chain t s.calls.frames f) :
    (s.calls.failure fault p).Explains t :=
  ⟨f, chain, .inl fails⟩

theorem Traced.bind {x : Run α} {f : α → Run β} (first : Traced t sites x)
    (second : ∀ a, Traced t sites (f a)) : Traced t sites (x >>= f) where
  keeps := first.keeps.bind (fun _ _ => trivial) fun a => (second a).keeps
  explains s failure s' g failed same chain := by
    rcases Run.bind_failed failed with failed | ⟨a, mid, done, failed⟩
    · exact first.explains s failure s' g failed same chain
    · exact (second a).explains mid failure s' g failed same (first.calls done ▸ chain)

theorem traced_fail {p : Position} (fault : Fault) (fails : sites.fails p) :
    Traced t sites (Run.fail p fault : Run α) where
  keeps := Run.keeps_fail (fun _ => trivial) p fault
  explains s failure s' f failed same chain := by
    subst same
    cases failed
    exact explains_of_fails fault fails chain

theorem traced_attempt {p : Position} (operation : Store → Attempt α) (fails : sites.fails p) :
    Traced t sites (Run.attempt p operation) where
  keeps := Run.keeps_attempt (fun _ => trivial) p operation
  explains s failure s' f failed same chain := by
    subst same
    unfold Run.attempt at failed
    split at failed <;> cases failed
    exact explains_of_fails _ fails chain

theorem traced_define {p : Position} (name : String) (value : Value) (fails : sites.fails p) :
    Traced t sites (Run.define p name value) where
  keeps := (Run.keeps_define p name value).imp fun _ => trivial
  explains s failure s' f failed same chain := by
    subst same
    unfold Run.define at failed
    split at failed <;> cases failed
    exact explains_of_fails _ fails chain

theorem traced_inScope {x : Run α} (traced : Traced t sites x) :
    Traced t sites (Run.inScope x) where
  keeps := Run.keeps_inScope (fun _ => trivial) traced.keeps
  explains s failure s' f failed same chain := by
    obtain ⟨mid, failed⟩ := Outcome.mapState_failed failed
    exact traced.explains _ failure mid f failed same chain

/-- Parameters can only clash with a name that is bound already, or with each other. -/
theorem bindParams_failed {p : Position} {failure : Failure} {s' : State} :
    ∀ {params : List String} {args : List Value} {s : State},
      bindParams p params args s = .failed failure s' →
      ∃ param, failure = s.calls.failure (.alreadyDefined param) p ∧
        (param ∈ s.scopes.inner.names ∧ param ∈ params ∨ 2 ≤ params.count param)
  | [], _, s, failed => by cases failed
  | _ :: _, [], s, failed => by cases failed
  | param :: params, value :: values, s, failed => by
      rcases Run.bind_failed failed with failed | ⟨_, mid, done, failed⟩
      · unfold Run.define Scopes.define at failed
        split at failed <;> rename_i found <;> cases failed
        split at found <;> rename_i bound <;> cases found
        exact ⟨param, rfl, .inl ⟨bound, List.mem_cons_self⟩⟩
      · unfold Run.define Scopes.define at done
        split at done <;> rename_i found <;> cases done
        split at found <;> cases found
        obtain ⟨other, rfl, clash⟩ := bindParams_failed failed
        refine ⟨other, rfl, ?_⟩
        rcases clash with ⟨bound, member⟩ | twice
        · rw [Scope.names_set, Set.mem_insert_iff] at bound
          rcases bound with rfl | bound
          · have once : 1 ≤ params.count other := List.one_le_count_iff.2 member
            exact .inr (by rw [List.count_cons_self]; omega)
          · exact .inl ⟨bound, List.mem_cons_of_mem _ member⟩
        · exact .inr (twice.trans List.count_le_count_cons)

/-- A failure of a call is one of its body, or a parameter that occurs twice. -/
theorem explains_of_enter {s s' : State} {name : String} {p : Position} {f : Function}
    {args : List Value} {body : Run Flow} {failure : Failure}
    (failed : enter name p f args body s = .failed failure s') (traced : Traced t f.sites body)
    (chain : Chain t (⟨name, p⟩ :: s.calls.frames) f) : failure.Explains t := by
  obtain ⟨inner, failed⟩ := Outcome.mapState_failed failed
  rcases Run.bind_failed failed with failed | ⟨_, mid, done, failed⟩
  · obtain ⟨param, rfl, clash⟩ := bindParams_failed failed
    refine ⟨f, chain, .inr ⟨⟨name, p⟩, param, rfl, rfl, rfl, ?_⟩⟩
    rcases clash with ⟨bound, -⟩ | twice
    · -- The scope of a call begins empty.
      change param ∈ Scope.empty.names at bound
      rw [Scope.names_empty] at bound
      cases bound
    · exact twice
  · have calls := (keeps_bindParams p f.params args _ mid (by rw [done]; rfl)).1
    rcases Run.bind_failed failed with failed | ⟨flow, _, -, failed⟩
    · exact traced.explains mid failure inner f failed rfl (by rw [calls]; exact chain)
    · cases failed

/-- Inside a function of the table, failures are explained by the calls that are running. -/
def tracing (t : FunctionTable) : Law t where
  code s _ x := Traced t s x
  call s _ x := Traced t s x
  code_of_call traced := traced
  call_pure a := .of_quiet (Run.quiet_pure a)
  call_bind first second := first.bind second
  code_bind first second := first.bind second
  call_exhausted := ⟨fun _ _ ended => (by cases ended), fun _ _ _ _ failed => by cases failed⟩
  call_fail fault fails := traced_fail fault fails
  call_attempt operation fails := traced_attempt operation fails
  call_make create := .of_quiet (Run.quiet_make create)
  call_writeLine line := .of_quiet (Run.quiet_writeLine line)
  call_readLine := .of_quiet Run.quiet_readLine
  call_enter own known calls traced :=
    { keeps := keeps_enter (fun _ => trivial) (fun _ => trivial) (fun _ _ => trivial)
        (fun _ => trivial) traced.keeps
      explains := fun s failure s' caller failed same chain => by
        subst same
        exact explains_of_enter failed traced (.call chain ⟨own, known⟩ calls) }
  code_scopes := .of_quiet Run.quiet_scopes
  code_truthy v := .of_quiet (Run.quiet_truthy v)
  code_write place value := .of_quiet (Run.quiet_write place value)
  code_define name value fails := traced_define name value fails
  code_assign name value :=
    ⟨fun _ _ ended => (by cases ended; exact ⟨rfl, trivial⟩), fun _ _ _ _ failed => by cases failed⟩
  code_inScope traced := traced_inScope traced

/-- No run can begin: there is no function `main`, or it takes parameters. -/
def Headless (t : FunctionTable) : Prop :=
  t.find? "main" = none ∨ ∃ f, t.find? "main" = some f ∧ f.params ≠ []

/-- The function `main` is found unless there is none to call. -/
theorem callee_main (t : FunctionTable) :
    (Headless t ∧ ∃ fault, t.callee "main" 0 = .error fault) ∨
      ¬ Headless t ∧ ∃ f, t.Runs "main" f ∧ t.callee "main" 0 = .ok (.user f) := by
  have own : Intrinsic.ofName? "main" = none := by decide
  unfold FunctionTable.callee
  rw [own]
  cases known : t.find? "main" with
  | none => exact .inl ⟨.inl known, _, rfl⟩
  | some f =>
      by_cases alone : f.params = []
      · have arity : f.arity = 0 := by rw [Function.arity, alone]; rfl
        refine .inr ⟨?_, f, ⟨own, known⟩, if_pos arity⟩
        rintro (missing | ⟨g, found, some⟩)
        · rw [known] at missing
          cases missing
        · rw [known] at found
          cases found
          exact some alone
      · have arity : f.arity ≠ 0 := fun none => alone (List.length_eq_zero_iff.1 none)
        exact .inl ⟨.inr ⟨f, known, alone⟩, _, if_neg arity⟩

/-- What becomes of a run that fails, whatever the number of steps. -/
theorem main_failed {t : FunctionTable} {s s' : State} {failure : Failure} {steps : Nat}
    (idle : s.calls = .empty)
    (failed : apply t .start "main" [] (steps + 2) s = .failed failure s') :
    (Headless t ∧ failure.trace = [] ∧ failure.position = .start) ∨
      ¬ Headless t ∧ failure.Explains t := by
  rw [apply] at failed
  rcases callee_main t with ⟨headless, fault, found⟩ | ⟨headed, f, runs, found⟩
  · rw [List.length_nil, found] at failed
    cases failed
    exact .inl ⟨headless, congrArg CallStack.frames idle, rfl⟩
  · rw [List.length_nil, found] at failed
    change invoke t .start "main" (.user f) [] (steps + 1) s = .failed failure s' at failed
    rw [invoke] at failed
    have traced := ((tracing t).kept steps).statements f.sites_covers
    have chain : Chain t (⟨"main", .start⟩ :: s.calls.frames) f := by
      rw [idle]
      exact .main runs
    exact .inr ⟨headed, explains_of_enter failed traced chain⟩

/-- **A trace describes a chain of calls.**  Without a `main` that can be called, the run fails
at the start of the text with no trace, and this is the only way to have none.  All other
failures have a trace that ends with `main`, called from the start, and names functions of the table
only.  Every other call in it stands in the body of the function called before, and the failure
stands in the body of the innermost, unless that has a parameter twice. -/
theorem trace_is_chain_of_calls (t : FunctionTable) (s : State) (idle : s.calls = .empty) :
    (Headless t → ∃ fault s', runMain t s = .failed ⟨fault, .start, []⟩ s') ∧
    ∀ failure s', runMain t s = .failed failure s' →
      (Headless t ∧ failure.trace = [] ∧ failure.position = .start) ∨
      (¬ Headless t ∧ failure.trace.getLast? = some ⟨"main", .start⟩ ∧
        (∀ frame ∈ failure.trace,
          t.contains frame.name = true ∧ Intrinsic.ofName? frame.name = none) ∧
        (∀ (k : Nat) (callee caller : Frame),
          failure.trace[k]? = some callee → failure.trace[k + 1]? = some caller →
          ∃ f g, t.find? callee.name = some f ∧ t.find? caller.name = some g ∧
            g.CallsAt callee.position f) ∧
        ∃ frame f, failure.trace.head? = some frame ∧ t.find? frame.name = some f ∧
          (f.HasNode failure.position ∨ failure.RepeatsParameter f)) := by
  obtain ⟨steps, enough⟩ : ∃ steps, limit = steps + 2 := ⟨limit - 2, rfl⟩
  refine ⟨fun headless => ?_, fun failure s' failed => ?_⟩
  · rcases callee_main t with ⟨-, fault, found⟩ | ⟨headed, -⟩
    · refine ⟨fault, s, ?_⟩
      rw [runMain, callFunction, enough, apply, List.length_nil, found]
      change Outcome.failed (s.calls.failure fault .start) s = _
      rw [idle]
      rfl
    · exact absurd headless headed
  · rw [runMain, callFunction, enough] at failed
    rcases main_failed idle failed with none | ⟨headed, f, chain, place⟩
    · exact .inl none
    · refine .inr ⟨headed, chain.getLast?, fun frame member => ?_, chain.link, ?_⟩
      · obtain ⟨g, own, known⟩ := chain.runs frame member
        exact ⟨by rw [FunctionTable.contains, known]; rfl, own⟩
      · obtain ⟨frame, first, runs⟩ := chain.head?
        exact ⟨frame, f, first, runs.2, place⟩

/-- A `main` that calls `go` through a variable, where `go` maps a callback that fails. -/
def failingCallback : FunctionTable where
  entries :=
    [("main", ⟨"main", [], [.declare ⟨2, 7⟩ "g" (.name ⟨2, 11⟩ "go"),
        .expr (.call ⟨3, 3⟩ "g" [])], ⟨1, 5⟩⟩),
      ("go", ⟨"go", [], [.return ⟨6, 3⟩ (some (.call ⟨6, 10⟩ "map"
        [.list ⟨6, 14⟩ [.null ⟨6, 15⟩], .string ⟨6, 21⟩ "bad"]))], ⟨5, 5⟩⟩),
      ("bad", ⟨"bad", ["x"], [.expr (.name ⟨9, 3⟩ "missing")], ⟨8, 5⟩⟩)]

/-- The callback stands in the trace at the place of the call of `map`, which is in `go`. -/
theorem trace_through_callback :
    ∃ failure s', runMain failingCallback (.start (.lines [])) = .failed failure s' ∧
      failure.trace = [⟨"bad", ⟨6, 10⟩⟩, ⟨"go", ⟨3, 3⟩⟩, ⟨"main", .start⟩] ∧
      ∃ f g, failingCallback.find? "bad" = some f ∧ failingCallback.find? "go" = some g ∧
        g.CallsAt ⟨6, 10⟩ f := by
  obtain ⟨-, failures⟩ := trace_is_chain_of_calls failingCallback (.start (.lines [])) rfl
  refine ⟨_, _, rfl, rfl, ?_⟩
  rcases failures _ _ rfl with ⟨-, none, -⟩ | ⟨-, -, -, link, -⟩
  · cases none
  · exact link 0 ⟨"bad", ⟨6, 10⟩⟩ ⟨"go", ⟨3, 3⟩⟩ rfl rfl

end Eval

end Script
