/-
# Script.Proofs.Eval.Origin -- where a run finds that a name stands for nothing

A failure is passed on as it is by all work around the piece it comes from.  So when a run fails
because a name stands for nothing, some work that it came to looks that name up: a variable or a call
written in the program, or a function that is called from outside or as a callback
(`Eval.origin`).  Nothing else that the evaluator does finds this fault (`Divided.blames`).  If what
is called from outside is there, it is the code of the program that looks the name up (`LookedUp`).
-/
import Script.Proofs.Eval.Division
import Script.Proofs.Eval.Written

namespace Script

set_option autoImplicit false

namespace FunctionTable

variable {t : FunctionTable} {name : String} {count : Nat}

/-- A lookup comes to nothing only for a name that stands for no function, and names it. -/
theorem callee_unfound {fault : Fault} (failed : t.callee name count = .error fault)
    (unfound : fault.Unfound) : t.names name = false ∧ fault = .undefinedFunction name := by
  unfold callee at failed
  cases known : Intrinsic.ofName? name with
  | some i =>
      rw [known] at failed
      dsimp only at failed
      split at failed <;> cases failed
      cases Fault.unfound_name unfound
  | none =>
      rw [known] at failed
      cases found : t.find? name with
      | some f =>
          rw [found] at failed
          dsimp only at failed
          split at failed <;> cases failed
          cases Fault.unfound_name unfound
      | none =>
          rw [found] at failed
          cases failed
          exact ⟨by simp [names, contains, known, found], rfl⟩

end FunctionTable

namespace Eval

/-- The failure with which the work ends, if it fails. -/
def Work.failure? (t : FunctionTable) (steps : Nat) (s : State) : Work → Option Failure
  | .expr e => (Eval.expr t e steps s).failure?
  | .exprs es => (Eval.exprs t es steps s).failure?
  | .dictEntries p entries filled => (Eval.dictEntries t p entries filled steps s).failure?
  | .call p callee args => (Eval.call t p callee args steps s).failure?
  | .apply p name args => (Eval.apply t p name args steps s).failure?
  | .invoke p name f args => (Eval.invoke t p name f args steps s).failure?
  | .intrinsic p i args => (Eval.intrinsic t p i args steps s).failure?
  | .mapItems p name items => (Eval.mapItems t p name items steps s).failure?
  | .mapText p name cs joined => (Eval.mapText t p name cs joined steps s).failure?
  | .statement st => (Eval.statement t st steps s).failure?
  | .rounds condition step body => (Eval.rounds t condition step body steps s).failure?
  | .statements body => (Eval.statements t body steps s).failure?

theorem Work.failure?_eq_some_iff {t : FunctionTable} {steps : Nat} {s : State} {failure : Failure}
    (w : Work) :
    w.failure? t steps s = some failure ↔ w.verdict? t steps s = some (some failure) := by
  cases w <;> exact Outcome.failure?_eq_some_iff

/-- The work begins by looking up a name that stands for nothing, and fails for that. -/
inductive Unknown (t : FunctionTable) : Work → State → Failure → Prop
  | name {p : Position} {word : String} {s : State} (unbound : s.scopes.lookup word = none)
      (missing : t.names word = false) :
      Unknown t (.expr (.name p word)) s (s.calls.failure (.undefinedVariable word) p)
  | call {p : Position} {callee : String} {args : List Expr} {s : State}
      (missing : t.names (s.scopes.target callee) = false) :
      Unknown t (.call p callee args) s
        (s.calls.failure (.undefinedFunction (s.scopes.target callee)) p)
  | apply {p : Position} {name : String} {args : List Value} {s : State}
      (missing : t.names name = false) :
      Unknown t (.apply p name args) s (s.calls.failure (.undefinedFunction name) p)

section

variable {t : FunctionTable} {steps : Nat} {s : State} {failure : Failure}

/-- What is refused because a name stands for nothing looks that name up. -/
theorem Refused.unknown {w : Work} (refused : Refused t w s failure)
    (unfound : failure.fault.Unfound) : Unknown t w s failure := by
  cases refused with
  | name unbound missing => exact .name unbound missing
  | call refused =>
      obtain ⟨missing, rfl⟩ := FunctionTable.callee_unfound refused unfound
      exact .call missing
  | apply refused =>
      obtain ⟨missing, rfl⟩ := FunctionTable.callee_unfound refused unfound
      exact .apply missing

/-- Work that fails because a name stands for nothing looks it up, or one of its parts fails so. -/
theorem failure_cases {w : Work} (failed : w.failure? t (steps + 1) s = some failure)
    (unfound : failure.fault.Unfound) :
    Unknown t w s failure ∨
      ∃ part ∈ w.parts t steps s, part.1.failure? t steps part.2 = some failure := by
  have failed := w.failure?_eq_some_iff.1 failed
  rcases divided_or_refused t steps s w with divided | ⟨own, refused, ended⟩
  · obtain ⟨part, member, same⟩ := divided.blames failure failed unfound
    exact .inr ⟨part, member, part.1.failure?_eq_some_iff.2 same⟩
  · obtain rfl : own = failure := Option.some.inj (Option.some.inj (ended.symm.trans failed))
    exact .inl (refused.unknown unfound)

end

/-- **A run that fails because a name stands for nothing came to work that looks one up in vain.** -/
theorem origin {t : FunctionTable} : ∀ (steps : Nat) {w : Work} {s : State} {failure : Failure},
    w.failure? t steps s = some failure → failure.fault.Unfound →
      ∃ task, Task.Reaches t ⟨steps, w, s⟩ task ∧ Unknown t task.work task.state failure := by
  intro steps
  induction steps with
  | zero =>
      intro w s failure failed unfound
      cases w <;> cases failed
  | succ steps ih =>
      intro w s failure failed unfound
      rcases failure_cases failed unfound with unknown | ⟨part, member, inner⟩
      · exact ⟨_, .refl, unknown⟩
      · obtain ⟨task, reached, unknown⟩ := ih inner unfound
        exact ⟨task, .head (.of member) reached, unknown⟩

/-- The task comes to code of the program that looks up the name, and that fails so if the name
stands for nothing.  The code is a call of the name or of a variable that holds the function of that
name, a call of `map` that is given this function or the name, or the name as a variable that is not
bound. -/
inductive LookedUp (t : FunctionTable) (root : Task) (name : String) : Failure → Prop
  | call {steps : Nat} {p : Position} {callee : String} {args : List Expr} {s : State}
      (written : t.Writes (.call p callee args))
      (reached : root.Reaches t ⟨steps, .call p callee args, s⟩)
      (target : s.scopes.target callee = name) :
      LookedUp t root name (s.calls.failure (.undefinedFunction name) p)
  | map {steps steps' : Nat} {p : Position} {v callback : Value} {args : List Value} {s s' : State}
      (reached : root.Reaches t ⟨steps, .intrinsic p .map [v, callback], s⟩)
      (stands : callback = .function name ∨ callback = .string name)
      (applied : Task.Reaches t ⟨steps, .intrinsic p .map [v, callback], s⟩
        ⟨steps', .apply p name args, s'⟩) :
      LookedUp t root name (s'.calls.failure (.undefinedFunction name) p)
  | word {steps : Nat} {p : Position} {s : State} (written : t.Writes (.name p name))
      (reached : root.Reaches t ⟨steps, .expr (.name p name), s⟩)
      (unbound : s.scopes.lookup name = none) :
      LookedUp t root name (s.calls.failure (.undefinedVariable name) p)

/-- It is code that looks a name up in vain, unless nothing has the name that is called from
outside. -/
theorem lookedUp_of_unknown {t : FunctionTable} {steps : Nat} {p : Position} {called name : String}
    {args : List Value} {s : State} {task : Task} {failure : Failure}
    (reached : Task.Reaches t ⟨steps, .apply p called args, s⟩ task)
    (unknown : Unknown t task.work task.state failure) (misses : failure.fault.Misses name) :
    t.names name = false ∧ ((called = name ∧ failure = s.calls.failure (.undefinedFunction name) p) ∨
      LookedUp t ⟨steps, .apply p called args, s⟩ name failure) := by
  have written : task.work.All t.Writes := reached.all (fun _ writes => writes) (List.forall_mem_nil _)
  obtain ⟨left, w, s⟩ := task
  cases unknown with
  | name unbound missing =>
      rcases misses with same | same <;> cases same
      exact ⟨missing, .inr (.word (Expr.All.self written) reached unbound)⟩
  | call missing =>
      rcases misses with same | same <;> cases same
      exact ⟨missing, .inr (.call (Expr.All.self written) reached rfl)⟩
  | apply missing =>
      rcases misses with same | same <;> cases same
      refine ⟨missing, ?_⟩
      rcases applied_by rfl reached rfl with same | ⟨n, v, callback, s', above, below, stands⟩
      · cases same
        exact .inl ⟨rfl, rfl⟩
      · exact .inr (.map above stands below)

/-- **A call that fails because some other name stands for nothing came to code that looks it up.** -/
theorem lookedUp_of_failed {t : FunctionTable} {p : Position} {called name : String}
    {args : List Value} {steps : Nat} {s s' : State} {failure : Failure}
    (failed : apply t p called args steps s = .failed failure s')
    (misses : failure.fault.Misses name) (other : called ≠ name) :
    LookedUp t ⟨steps, .apply p called args, s⟩ name failure := by
  have failed : (Work.apply p called args).failure? t steps s = some failure :=
    congrArg Outcome.failure? failed
  obtain ⟨task, reached, unknown⟩ := origin steps failed ⟨name, misses⟩
  obtain ⟨-, ⟨same, -⟩ | lookedUp⟩ := lookedUp_of_unknown reached unknown misses
  · exact absurd same other
  · exact lookedUp

end Eval

end Script
