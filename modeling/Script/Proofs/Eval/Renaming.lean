/-
# Script.Proofs.Eval.Renaming -- a function called by another name

The name of a call is written on its frame and read again only where a failure is reported.  So
runs from states that are `State.Renamed`, whose calls run at the same places under any names,
cannot be told apart but by the names in a trace.

The name also is what code uses to refer to the function.  Over a table that has one function more
a run does the same unless it comes to look up that name, and then the run over the smaller table
`Misses` it (`Eval.furtherName`).  Two tables that hold one function under two names both
are such larger tables of one that has neither.  A run that fails so has come to code that looks the
name up; hence `apply_renamed`.
-/
import Script.Proofs.Eval.Extension
import Script.Proofs.Eval.Origin

namespace Script

set_option autoImplicit false

/-- The same fault, except that a call with a wrong number of arguments may be one by another name. -/
inductive Fault.Renamed : Fault → Fault → Prop
  | same (fault : Fault) : Renamed fault fault
  | arity (name name' : String) (expected got : Nat) :
      Renamed (functionArity name expected got) (functionArity name' expected got)

/-- The computation failed because the name stands for nothing. -/
def Outcome.Misses {α : Type} (name : String) (o : Outcome α) : Prop :=
  ∃ failure s, o = .failed failure s ∧ failure.fault.Misses name

/-- Where the calls are made from, innermost first. -/
def Frame.places (frames : List Frame) : List Position :=
  frames.map (·.position)

/-- The states differ at most in the names of the running calls. -/
inductive State.Renamed : State → State → Prop
  | intro {scopes : Scopes} {calls calls' : CallStack} {store : Store} {console : Console}
      (places : Frame.places calls.frames = Frame.places calls'.frames) :
      Renamed ⟨scopes, calls, store, console⟩ ⟨scopes, calls', store, console⟩

/-- The same ending up to the names of calls. -/
inductive Outcome.Renamed {α : Type} : Outcome α → Outcome α → Prop
  | done (a : α) {s s' : State} (states : s.Renamed s') : Renamed (.done a s) (.done a s')
  | failed {fault fault' : Fault} (position : Position) {trace trace' : List Frame} {s s' : State}
      (faults : fault.Renamed fault') (places : Frame.places trace = Frame.places trace')
      (states : s.Renamed s') :
      Renamed (.failed ⟨fault, position, trace⟩ s) (.failed ⟨fault', position, trace'⟩ s')
  | aborted : Renamed .aborted .aborted
  | exhausted : Renamed .exhausted .exhausted

namespace Fault

variable {fault fault' fault'' : Fault}

theorem Renamed.symm (renamed : fault.Renamed fault') : fault'.Renamed fault := by
  cases renamed with
  | same => exact .same fault
  | arity name name' expected got => exact .arity name' name expected got

theorem Renamed.trans (first : fault.Renamed fault') (second : fault'.Renamed fault'') :
    fault.Renamed fault'' := by
  cases first with
  | same => exact second
  | arity name name' expected got =>
      cases second with
      | same => exact .arity name name' expected got
      | arity _ name'' => exact .arity name name'' expected got

theorem Renamed.misses {name : String} (renamed : fault.Renamed fault')
    (missing : fault.Misses name) : fault'.Misses name := by
  cases renamed with
  | same => exact missing
  | arity => exact missing.elim nofun nofun

end Fault

theorem State.Renamed.refl (s : State) : s.Renamed s :=
  .intro rfl

theorem State.Renamed.symm {s s' : State} (renamed : s.Renamed s') : s'.Renamed s := by
  obtain ⟨places⟩ := renamed
  exact .intro places.symm

theorem State.Renamed.trans {s s' s'' : State} (first : s.Renamed s') (second : s'.Renamed s'') :
    s.Renamed s'' := by
  obtain ⟨places⟩ := first
  obtain ⟨places'⟩ := second
  exact .intro (places.trans places')

namespace Outcome

variable {α : Type} {o o' o'' : Outcome α}

theorem Renamed.symm (renamed : o.Renamed o') : o'.Renamed o := by
  cases renamed with
  | done a states => exact .done a states.symm
  | failed position faults places states =>
      exact .failed position faults.symm places.symm states.symm
  | aborted => exact .aborted
  | exhausted => exact .exhausted

theorem Renamed.trans (first : o.Renamed o') (second : o'.Renamed o'') : o.Renamed o'' := by
  cases first with
  | done a states =>
      cases second with
      | done _ states' => exact .done a (states.trans states')
  | failed position faults places states =>
      cases second with
      | failed _ faults' places' states' =>
          exact .failed position (faults.trans faults') (places.trans places')
            (states.trans states')
  | aborted => exact second
  | exhausted => exact second

theorem Renamed.misses {name : String} (renamed : o.Renamed o') (misses : o.Misses name) :
    o'.Misses name := by
  obtain ⟨failure, s, rfl, missing⟩ := misses
  cases renamed with
  | failed position faults places states => exact ⟨_, _, rfl, faults.misses missing⟩

theorem Renamed.mapState {f : State → State}
    (keeps : ∀ {s s'}, s.Renamed s' → (f s).Renamed (f s')) (renamed : o.Renamed o') :
    (o.mapState f).Renamed (o'.mapState f) := by
  cases renamed with
  | done a states => exact .done a (keeps states)
  | failed position faults places states => exact .failed position faults places (keeps states)
  | aborted => exact .aborted
  | exhausted => exact .exhausted

/-- What is changed in the state that is left behind has no part in why a computation fails. -/
theorem misses_mapState {name : String} {f : State → State} (misses : o.Misses name) :
    (o.mapState f).Misses name := by
  obtain ⟨failure, s, rfl, missing⟩ := misses
  exact ⟨failure, f s, rfl, missing⟩

/-- A computation does not fail for want of two names. -/
theorem Misses.unique {name other : String} (misses : o.Misses name) (misses' : o.Misses other) :
    name = other := by
  obtain ⟨failure, s, rfl, missing⟩ := misses
  obtain ⟨_, _, same, missing'⟩ := misses'
  cases same
  rcases missing with found | found <;> rcases missing' with found' | found' <;>
    cases found.symm.trans found'
  · rfl
  · rfl

end Outcome

namespace Run

variable {α β : Type} {name : String}

/-- Up to the names of calls the second computation does what the first does, unless that fails
because `name` stands for nothing. -/
def Renames (name : String) (x y : Run α) : Prop :=
  ∀ s s' : State, s.Renamed s' → (x s).Misses name ∨ (x s).Renamed (y s')

theorem renames_misses {p : Position} {fault : Fault} (misses : fault.Misses name) (y : Run α) :
    (fail p fault).Renames name y :=
  fun s _ _ => .inl ⟨s.calls.failure fault p, s, rfl, misses⟩

theorem renames_pure (a : α) : (pure a : Run α).Renames name (pure a) :=
  fun _ _ states => .inr (.done a states)

theorem Renames.bind {x y : Run α} {f g : α → Run β} (first : x.Renames name y)
    (second : ∀ a, (f a).Renames name (g a)) : (x >>= f).Renames name (y >>= g) := by
  intro s s' states
  change (Run.bind x f s).Misses name ∨ (Run.bind x f s).Renamed (Run.bind y g s')
  unfold Run.bind
  rcases first s s' states with ⟨failure, mid, failed, missing⟩ | ended
  · rw [failed]
    exact .inl ⟨failure, mid, rfl, missing⟩
  · generalize x s = o at ended ⊢
    generalize y s' = o' at ended ⊢
    cases ended with
    | done a states => exact second a _ _ states
    | failed position faults places states => exact .inr (.failed position faults places states)
    | aborted => exact .inr .aborted
    | exhausted => exact .inr .exhausted

theorem renames_fail (p : Position) (fault : Fault) :
    (fail p fault : Run α).Renames name (fail p fault) := by
  rintro _ _ ⟨places⟩
  exact .inr (.failed p (.same fault) places (.intro places))

theorem renames_attempt (p : Position) (operation : Store → Attempt α) :
    (attempt p operation).Renames name (attempt p operation) := by
  rintro _ _ @⟨_, _, _, store, _, places⟩
  right
  unfold attempt
  dsimp only
  cases operation store with
  | ok a => exact .done a (.intro places)
  | error halt =>
      cases halt with
      | fault cause => exact .failed p (.same cause) places (.intro places)
      | aborted => exact .aborted
      | endless => exact .exhausted

theorem renames_scopes : scopes.Renames name scopes := by
  rintro _ _ ⟨places⟩
  exact .inr (.done _ (.intro places))

theorem renames_truthy (v : Value) : (truthy v).Renames name (truthy v) := by
  rintro _ _ ⟨places⟩
  exact .inr (.done _ (.intro places))

theorem renames_make (create : Store → Value × Store) :
    (make create).Renames name (make create) := by
  rintro _ _ ⟨places⟩
  exact .inr (.done _ (.intro places))

theorem renames_write (place : Place) (value : Value) :
    (write place value).Renames name (write place value) := by
  rintro _ _ ⟨places⟩
  exact .inr (.done () (.intro places))

theorem renames_writeLine (line : String) : (writeLine line).Renames name (writeLine line) := by
  rintro _ _ ⟨places⟩
  exact .inr (.done () (.intro places))

theorem renames_readLine : readLine.Renames name readLine := by
  rintro _ _ ⟨places⟩
  exact .inr (.done _ (.intro places))

theorem renames_assign (word : String) (value : Value) :
    (assign word value).Renames name (assign word value) := by
  rintro _ _ ⟨places⟩
  exact .inr (.done () (.intro places))

theorem renames_define (p : Position) (word : String) (value : Value) :
    (define p word value).Renames name (define p word value) := by
  rintro _ _ @⟨scopes, _, _, _, _, places⟩
  right
  unfold define
  dsimp only
  cases scopes.define word value with
  | ok scopes => exact .done () (.intro places)
  | error fault => exact .failed p (.same fault) places (.intro places)

theorem Renames.inScope {x y : Run α} (renames : x.Renames name y) :
    (inScope x).Renames name (inScope y) := by
  rintro _ _ ⟨places⟩
  refine (renames _ _ (.intro places)).imp Outcome.misses_mapState (Outcome.Renamed.mapState ?_)
  rintro _ _ ⟨places⟩
  exact .intro places

/-- The two calls may be made under different names. -/
theorem Renames.inCall {p : Position} {x y : Run α} (renames : x.Renames name y)
    (called called' : String) :
    (inCall ⟨called, p⟩ x).Renames name (inCall ⟨called', p⟩ y) := by
  rintro _ _ ⟨places⟩
  refine (renames _ _ (.intro ?pushed)).imp Outcome.misses_mapState (Outcome.Renamed.mapState ?popped)
  case pushed => exact congrArg (p :: ·) places
  case popped =>
    rintro _ _ ⟨places⟩
    refine .intro ?_
    simpa [Frame.places, CallStack.pop] using congrArg List.tail places

end Run

namespace FunctionTable

variable {t u : FunctionTable} {name : String}

/-- The table without what it holds under a name. -/
def without (t : FunctionTable) (name : String) : FunctionTable :=
  ⟨t.entries.filter (·.1 != name)⟩

theorem find?_without (t : FunctionTable) (name other : String) :
    (t.without name).find? other = if other = name then none else t.find? other := by
  obtain ⟨entries⟩ := t
  simp only [without, find?]
  induction entries with
  | nil => simp
  | cons entry entries ih =>
      obtain ⟨key, f⟩ := entry
      rw [List.filter_cons, List.lookup_cons]
      by_cases kept : key = name
      · subst kept
        rw [if_neg (by simp), ih]
        by_cases same : other = key
        · rw [if_pos same, if_pos same]
        · rw [if_neg same, if_neg same, beq_false_of_ne same]
      · rw [if_pos (by simpa using kept), List.lookup_cons]
        by_cases same : other = key
        · simp [same, kept]
        · simp [ih, beq_false_of_ne same]

/-- The second table has at most one function more, and that under `name`. -/
structure Besides (name : String) (t u : FunctionTable) : Prop where
  within : t.Within u
  others : ∀ other, other ≠ name → u.find? other = t.find? other

theorem besides_without (t : FunctionTable) (name : String) : Besides name (t.without name) t where
  within other g found := by
    rw [find?_without] at found
    split at found
    · cases found
    · exact found
  others other different := by rw [find?_without, if_neg different]

namespace Besides

theorem callee (besides : Besides name t u) {other : String} {count : Nat} {fault : Fault}
    (refused : t.callee other count = .error fault) (known : ¬ fault.Misses name) :
    u.callee other count = .error fault := by
  unfold FunctionTable.callee at *
  by_cases same : other = name
  · subst same
    cases own : Intrinsic.ofName? other with
    | some i => rwa [own] at refused
    | none =>
        rw [own] at refused
        cases found : t.find? other with
        | some f => rwa [besides.within other f found, ← found]
        | none =>
            rw [found] at refused
            cases refused
            exact absurd (.inr rfl) known
  · rwa [besides.others other same]

theorem names (besides : Besides name t u) {other : String} (different : other ≠ name) :
    u.names other = t.names other := by
  rw [FunctionTable.names, FunctionTable.names, contains, contains, besides.others other different]

end Besides

end FunctionTable

namespace Eval

variable {t u : FunctionTable} {name : String}

theorem renames_bindParams (p : Position) :
    ∀ (params : List String) (args : List Value),
      (bindParams p params args).Renames name (bindParams p params args)
  | [], _ => Run.renames_pure ()
  | _ :: _, [] => Run.renames_pure ()
  | param :: params, value :: values =>
      (Run.renames_define p param value).bind fun _ => renames_bindParams p params values

theorem renames_enter (p : Position) (f : Function) (args : List Value) {x y : Run Flow}
    (body : x.Renames name y) (called called' : String) :
    (enter called p f args x).Renames name (enter called' p f args y) :=
  ((renames_bindParams p f.params args).bind fun _ =>
    body.bind fun _ => Run.renames_pure _).inCall called called'

/-- What runs over a table runs the same over one that has a function more, unless it comes to look
up the name of that one. -/
def furtherName (besides : FunctionTable.Besides name t u) : Lockstep t u where
  code _ _ x y := x.Renames name y
  call _ _ x y := x.Renames name y
  code_of_call renames := renames
  call_pure a := Run.renames_pure a
  call_bind first second := first.bind second
  code_bind first second := first.bind second
  call_exhausted := fun _ _ _ => .inr .exhausted
  call_fail fault _ := Run.renames_fail _ fault
  call_attempt operation _ := Run.renames_attempt _ operation
  call_make create := Run.renames_make create
  call_writeLine line := Run.renames_writeLine line
  call_readLine := Run.renames_readLine
  callee found := besides.within.callee found
  call_refused := by
    intro _ _ p other count fault rest _ refused
    by_cases missing : fault.Misses name
    · exact Run.renames_misses missing _
    · rw [besides.callee refused missing]
      exact Run.renames_fail p fault
  call_enter _ _ _ body := renames_enter _ _ _ body _ _
  code_reference := by
    intro _ p word _
    unfold reference
    by_cases same : word = name
    · subst same
      by_cases known : t.names word = true
      · rw [if_pos known, if_pos (besides.within.names known)]
        exact Run.renames_pure _
      · rw [if_neg known]
        exact Run.renames_misses (.inl rfl) _
    · rw [besides.names same]
      split
      · exact Run.renames_pure _
      · exact Run.renames_fail p _
  code_scopes := Run.renames_scopes
  code_truthy v := Run.renames_truthy v
  code_write place value := Run.renames_write place value
  code_define word value _ := Run.renames_define _ word value
  code_assign word value := Run.renames_assign word value
  code_inScope renames := renames.inScope

/-- The body of a function, entered by either of two names over tables that have further names. -/
theorem enter_renamed {r : FunctionTable} {newName : String}
    (first : FunctionTable.Besides newName r t) (second : FunctionTable.Besides name r u)
    (different : name ≠ newName) (p : Position) (f : Function) (args : List Value) (steps : Nat)
    (s : State) :
    let here := enter newName p f args (Eval.statements t f.body steps) s
    let there := enter name p f args (Eval.statements u f.body steps) s
    here.Misses name ∨ there.Misses newName ∨ here.Renamed there := by
  intro here there
  have covers := f.sites_covers
  have kept := renames_enter p f args (((furtherName first).kept steps).statements covers)
    newName newName s s (.refl s)
  have kept' := renames_enter p f args (((furtherName second).kept steps).statements covers)
    newName name s s (.refl s)
  rcases kept with misses | renamed
  · rcases kept' with misses' | renamed'
    · exact absurd (misses'.unique misses) different
    · exact .inr (.inl (renamed'.misses misses))
  · rcases kept' with misses' | renamed'
    · exact .inl (renamed.misses misses')
    · exact .inr (.inr (renamed.symm.trans renamed'))

/-- Two tables hold one function, each under a name that the other does not have, and are otherwise
the same; neither name is that of an intrinsic. -/
structure HeldAs (f : Function) (newName name : String) (t u : FunctionTable) : Prop where
  here : t.find? newName = some f
  there : u.find? name = some f
  lacks : t.find? name = none
  lacks' : u.find? newName = none
  others : ∀ other, other ≠ newName → other ≠ name → t.find? other = u.find? other
  user : Intrinsic.ofName? newName = none
  user' : Intrinsic.ofName? name = none

namespace HeldAs

variable {f : Function} {newName : String} (held : HeldAs f newName name t u)

include held

theorem different : name ≠ newName := by
  rintro rfl
  cases held.here.symm.trans held.lacks

/-- What the first table holds without the function the second holds too. -/
theorem besides : FunctionTable.Besides name (t.without newName) u where
  within other g found := by
    rw [FunctionTable.find?_without] at found
    split at found
    · cases found
    · rename_i different
      rw [← held.others other different ?_]
      · exact found
      · rintro rfl
        cases held.lacks.symm.trans found
  others other different := by
    rw [FunctionTable.find?_without]
    split
    · rename_i same
      rw [same, held.lacks']
    · rename_i different'
      rw [held.others other different' different]

theorem callee (count : Nat) : t.callee newName count =
    if f.arity = count then .ok (.user f) else .error (.functionArity newName f.arity count) := by
  rw [FunctionTable.callee, held.user, held.here]

theorem callee' (count : Nat) : u.callee name count =
    if f.arity = count then .ok (.user f) else .error (.functionArity name f.arity count) := by
  rw [FunctionTable.callee, held.user', held.there]

end HeldAs

/-- Called by another name a function does what it does by its own, unless one of the two calls fails
because the other name stands for nothing. -/
theorem apply_misses_or_renamed {f : Function} {newName : String} (held : HeldAs f newName name t u)
    (p : Position) (args : List Value) (steps : Nat) (s : State) :
    let here := apply t p newName args steps s
    let there := apply u p name args steps s
    here.Misses name ∨ there.Misses newName ∨ here.Renamed there := by
  intro here there
  cases steps with
  | zero => exact .inr (.inr .exhausted)
  | succ steps =>
      have called : here = (Run.check p (t.callee newName args.length) >>=
          (Eval.invoke t p newName · args steps)) s := by simp only [here, Eval.apply]
      have called' : there = (Run.check p (u.callee name args.length) >>=
          (Eval.invoke u p name · args steps)) s := by simp only [there, Eval.apply]
      rw [held.callee] at called
      rw [held.callee'] at called'
      by_cases arity : f.arity = args.length
      · rw [if_pos arity] at called called'
        rw [called, called']
        cases steps with
        | zero => exact .inr (.inr .exhausted)
        | succ steps =>
            exact enter_renamed (t.besides_without newName) held.besides held.different p f args
              steps s
      · rw [if_neg arity] at called called'
        rw [called, called']
        exact .inr (.inr (.failed p (.arity _ _ _ _) rfl (.refl s)))

/-- **A function does by another name what it does by its own**, up to the names in traces and
messages, unless it comes to code that looks up one of the two names where that stands for nothing,
and fails there. -/
theorem apply_renamed {f : Function} {newName : String} (held : HeldAs f newName name t u)
    (p : Position) (args : List Value) (steps : Nat) (s : State) :
    let here := apply t p newName args steps s
    let there := apply u p name args steps s
    (∃ failure s', here = .failed failure s' ∧
      LookedUp t ⟨steps, .apply p newName args, s⟩ name failure) ∨
    (∃ failure s', there = .failed failure s' ∧
      LookedUp u ⟨steps, .apply p name args, s⟩ newName failure) ∨
    here.Renamed there := by
  refine (apply_misses_or_renamed held p args steps s).imp ?_ (Or.imp_left ?_)
  · rintro ⟨failure, s', failed, misses⟩
    exact ⟨failure, s', failed, lookedUp_of_failed failed misses held.different.symm⟩
  · rintro ⟨failure, s', failed, misses⟩
    exact ⟨failure, s', failed, lookedUp_of_failed failed misses held.different⟩

end Eval

end Script
