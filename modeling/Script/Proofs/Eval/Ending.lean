/-
# Script.Proofs.Eval.Ending -- how computations end

A sequence ends where its first part fails, or else as its second part does
(`Run.bind_failed`, `Run.state?_bind`).  Most operations on the state cannot fail at all
and have nothing to do with calls and scopes: they are `Run.Quiet`.
-/
import Script.Eval.Run

namespace Script

set_option autoImplicit false

namespace Outcome

variable {α : Type}

/-- The state left behind by a computation that ends with a result or a failure. -/
def state? : Outcome α → Option State
  | done _ s | failed _ s => some s
  | aborted | exhausted => none

theorem state?_mapState (f : State → State) (o : Outcome α) :
    (o.mapState f).state? = o.state?.map f := by
  cases o <;> rfl

theorem mapState_failed {f : State → State} {o : Outcome α} {failure : Failure} {s : State}
    (failed : o.mapState f = .failed failure s) : ∃ inner, o = .failed failure inner := by
  cases o <;> cases failed
  exact ⟨_, rfl⟩

end Outcome

namespace Run

variable {α β : Type}

instance : LawfulMonad Run :=
  LawfulMonad.mk' Run
    (fun x => funext fun s => by
      change Run.bind x Run.pure s = x s
      unfold Run.bind
      cases x s <;> rfl)
    (fun _ _ => rfl)
    (fun x f g => funext fun s => by
      change Run.bind (Run.bind x f) g s = Run.bind x (fun a => Run.bind (f a) g) s
      unfold Run.bind
      cases x s <;> rfl)

/-- A sequence goes on from where its first part gives a result. -/
theorem bind_done {x : Run α} {f : α → Run β} {s s' : State} {a : α} (done : x s = .done a s') :
    (x >>= f) s = f a s' := by
  change Run.bind x f s = f a s'
  rw [Run.bind, done]

/-- A sequence fails in its first part or, after that has a result, in its second. -/
theorem bind_failed {x : Run α} {f : α → Run β} {s s' : State} {failure : Failure}
    (failed : (x >>= f) s = .failed failure s') :
    x s = .failed failure s' ∨ ∃ a mid, x s = .done a mid ∧ f a mid = .failed failure s' := by
  change Run.bind x f s = .failed failure s' at failed
  unfold Run.bind at failed
  cases first : x s with
  | done a mid =>
      rw [first] at failed
      exact .inr ⟨a, mid, rfl, failed⟩
  | failed other mid =>
      rw [first] at failed
      cases failed
      exact .inl rfl
  | aborted => rw [first] at failed; cases failed
  | exhausted => rw [first] at failed; cases failed

/-- A sequence ends in the state that its second part leaves, or its first when that fails. -/
theorem state?_bind {x : Run α} {f : α → Run β} {s s' : State}
    (ended : ((x >>= f) s).state? = some s') :
    (∃ a mid, x s = .done a mid ∧ (f a mid).state? = some s') ∨ (x s).state? = some s' := by
  change (Run.bind x f s).state? = some s' at ended
  unfold Run.bind at ended
  cases first : x s with
  | done a mid =>
      rw [first] at ended
      exact .inl ⟨a, mid, rfl, ended⟩
  | failed failure mid =>
      rw [first] at ended
      exact .inr ended
  | aborted => rw [first] at ended; cases ended
  | exhausted => rw [first] at ended; cases ended

/-- An operation on values leaves the state alone. -/
theorem attempt_done {p : Position} {operation : Store → Attempt α} {s s' : State} {a : α}
    (done : attempt p operation s = .done a s') : s' = s ∧ operation s.store = .ok a := by
  unfold attempt at done
  split at done
  · cases done
    exact ⟨rfl, by assumption⟩
  all_goals cases done

/-- Asking whether a value counts as true leaves the state alone. -/
theorem truthy_bind {v : Value} {f : Bool → Run β} {s : State} :
    (truthy v >>= f) s = f (s.store.truthy v) s := rfl

/-- The computation ends with a result and leaves calls and scopes alone. -/
def Quiet (x : Run α) : Prop :=
  ∀ s, ∃ a s', x s = .done a s' ∧ s'.calls = s.calls ∧ s'.scopes = s.scopes

theorem quiet_pure (a : α) : (pure a : Run α).Quiet :=
  fun _ => ⟨_, _, rfl, rfl, rfl⟩

theorem quiet_scopes : scopes.Quiet :=
  fun _ => ⟨_, _, rfl, rfl, rfl⟩

theorem quiet_truthy (v : Value) : (truthy v).Quiet :=
  fun _ => ⟨_, _, rfl, rfl, rfl⟩

theorem quiet_make (create : Store → Value × Store) : (make create).Quiet :=
  fun _ => ⟨_, _, rfl, rfl, rfl⟩

theorem quiet_write (place : Place) (value : Value) : (write place value).Quiet :=
  fun _ => ⟨_, _, rfl, rfl, rfl⟩

theorem quiet_writeLine (line : String) : (writeLine line).Quiet :=
  fun _ => ⟨_, _, rfl, rfl, rfl⟩

theorem quiet_readLine : readLine.Quiet :=
  fun _ => ⟨_, _, rfl, rfl, rfl⟩

end Run

end Script
