/-
# Script.Proofs.Eval.Beside -- the same computations in other scopes

Two runs that are in the same store and at the same console may have other scopes around them, and
other calls.  They go on `Beside` each other when from scopes that are related they come to scopes
that are, with the same results and the same changes to store and console.

Most operations have nothing to do with scopes and keep any relation between them.  What remains
to be said of a relation is that names are found, bound and overwritten alike on both sides, and
how scopes are opened and closed; from that `beside` makes a tandem of the evaluator.
-/
import Script.Proofs.Eval.Tandem

namespace Script

set_option autoImplicit false

/-- How the running calls of two runs may differ, and the failures raised under them. -/
structure Callers where
  calls : CallStack → CallStack → Prop
  failures : Failure → Failure → Prop
  failure : ∀ {c c' : CallStack} (fault : Fault) (p : Position), calls c c' →
    failures (c.failure fault p) (c'.failure fault p)
  push : ∀ {c c' : CallStack} (frame : Frame), calls c c' → calls (c.push frame) (c'.push frame)
  pop : ∀ {c c' : CallStack}, calls c c' → calls c.pop c'.pop

namespace Callers

/-- The same calls are running. -/
def same : Callers where
  calls := Eq
  failures := Eq
  failure := by
    rintro c _ fault p rfl
    rfl
  push := by
    rintro c _ frame rfl
    rfl
  pop := by
    rintro c _ rfl
    rfl

/-- Any calls are running, and failures differ in their traces. -/
def any : Callers where
  calls _ _ := True
  failures f f' := f.fault = f'.fault ∧ f.position = f'.position
  failure _ _ _ := ⟨rfl, rfl⟩
  push _ _ := trivial
  pop _ := trivial

end Callers

/-- The states differ in their scopes, which are related, and in their calls at most. -/
inductive State.Beside (c : Callers) (R : Scopes → Scopes → Prop) : State → State → Prop
  | intro {scopes scopes' : Scopes} {calls calls' : CallStack} {store : Store} {console : Console}
      (related : R scopes scopes') (callers : c.calls calls calls') :
      Beside c R ⟨scopes, calls, store, console⟩ ⟨scopes', calls', store, console⟩

/-- The same ending, in scopes that are related as results or failures leave them. -/
inductive Outcome.Beside {α : Type} (c : Callers) (after : α → Scopes → Scopes → Prop)
    (failing : Scopes → Scopes → Prop) : Outcome α → Outcome α → Prop
  | done (a : α) {s s' : State} (states : s.Beside c (after a) s') :
      Beside c after failing (.done a s) (.done a s')
  | failed {failure failure' : Failure} {s s' : State} (failures : c.failures failure failure')
      (states : s.Beside c failing s') :
      Beside c after failing (.failed failure s) (.failed failure' s')
  | aborted : Beside c after failing .aborted .aborted
  | exhausted : Beside c after failing .exhausted .exhausted

namespace Run

variable {α β : Type} {c : Callers} {before failing : Scopes → Scopes → Prop}
  {after : α → Scopes → Scopes → Prop}

/-- From scopes that are related the computations come to the same, in related scopes. -/
def Beside (c : Callers) (before : Scopes → Scopes → Prop) (after : α → Scopes → Scopes → Prop)
    (failing : Scopes → Scopes → Prop) (x y : Run α) : Prop :=
  ∀ s s' : State, s.Beside c before s' → (x s).Beside c after failing (y s')

/-- A relation between scopes that the computations keep. -/
def KeepBeside (c : Callers) (R : Scopes → Scopes → Prop) (x y : Run α) : Prop :=
  Beside c R (fun _ => R) R x y

theorem Beside.bind {x y : Run α} {f g : α → Run β} {last : β → Scopes → Scopes → Prop}
    (first : Beside c before after failing x y)
    (second : ∀ a, Beside c (after a) last failing (f a) (g a)) :
    Beside c before last failing (x >>= f) (y >>= g) := by
  intro s s' states
  have ended := first s s' states
  change (Run.bind x f s).Beside c last failing (Run.bind y g s')
  unfold Run.bind
  generalize x s = o at ended ⊢
  generalize y s' = o' at ended ⊢
  cases ended with
  | done a states => exact second a _ _ states
  | failed failures states => exact .failed failures states
  | aborted => exact .aborted
  | exhausted => exact .exhausted

theorem Beside.imp {x y : Run α} {after' : α → Scopes → Scopes → Prop}
    {failing' : Scopes → Scopes → Prop} (beside : Beside c before after failing x y)
    (done : ∀ {a r r'}, after a r r' → after' a r r')
    (failed : ∀ {r r'}, failing r r' → failing' r r') : Beside c before after' failing' x y := by
  intro s s' states
  have ended := beside s s' states
  generalize x s = o at ended ⊢
  generalize y s' = o' at ended ⊢
  cases ended with
  | done a states =>
      obtain ⟨related, callers⟩ := states
      exact .done a ⟨done related, callers⟩
  | failed failures states =>
      obtain ⟨related, callers⟩ := states
      exact .failed failures ⟨failed related, callers⟩
  | aborted => exact .aborted
  | exhausted => exact .exhausted

theorem beside_pure {a : α} (kept : ∀ {r r'}, before r r' → after a r r') :
    Beside c before after failing (pure a : Run α) (pure a) := by
  rintro _ _ ⟨related, callers⟩
  exact .done a ⟨kept related, callers⟩

theorem beside_fail (kept : ∀ {r r'}, before r r' → failing r r') (p : Position) (fault : Fault) :
    Beside c before after failing (fail p fault : Run α) (fail p fault) := by
  rintro _ _ ⟨related, callers⟩
  exact .failed (c.failure fault p callers) ⟨kept related, callers⟩

theorem beside_exhausted : Beside c before after failing (exhausted : Run α) exhausted :=
  fun _ _ _ => .exhausted

theorem beside_attempt (kept : ∀ {r r'}, before r r' → failing r r') (p : Position)
    (operation : Store → Attempt α) :
    Beside c before (fun _ => before) failing (attempt p operation) (attempt p operation) := by
  rintro _ _ @⟨scopes, scopes', calls, calls', store, console, related, callers⟩
  unfold attempt
  dsimp only
  cases operation store with
  | ok a => exact .done a ⟨related, callers⟩
  | error halt =>
      cases halt with
      | fault fault => exact .failed (c.failure fault p callers) ⟨kept related, callers⟩
      | aborted => exact .aborted
      | endless => exact .exhausted

theorem beside_make (create : Store → Value × Store) :
    Beside c before (fun _ => before) failing (make create) (make create) := by
  rintro _ _ ⟨related, callers⟩
  exact .done _ ⟨related, callers⟩

theorem beside_write (place : Place) (value : Value) :
    Beside c before (fun _ => before) failing (write place value) (write place value) := by
  rintro _ _ ⟨related, callers⟩
  exact .done () ⟨related, callers⟩

theorem beside_writeLine (line : String) :
    Beside c before (fun _ => before) failing (writeLine line) (writeLine line) := by
  rintro _ _ ⟨related, callers⟩
  exact .done () ⟨related, callers⟩

theorem beside_readLine : Beside c before (fun _ => before) failing readLine readLine := by
  rintro _ _ ⟨related, callers⟩
  exact .done _ ⟨related, callers⟩

theorem beside_truthy (v : Value) :
    Beside c before (fun _ => before) failing (truthy v) (truthy v) := by
  rintro _ _ ⟨related, callers⟩
  exact .done _ ⟨related, callers⟩

/-- What depends on the scopes goes on in scopes that are related. -/
theorem beside_scopes {f g : Scopes → Run α}
    (second : ∀ {r r'}, before r r' → Beside c before after failing (f r) (g r')) :
    Beside c before after failing (scopes >>= f) (scopes >>= g) := by
  rintro _ _ ⟨related, callers⟩
  exact second related _ _ ⟨related, callers⟩

theorem beside_assign {word : String} {value : Value} {last : Scopes → Scopes → Prop}
    (kept : ∀ {r r'}, before r r' → last (r.assign word value) (r'.assign word value)) :
    Beside c before (fun _ => last) failing (assign word value) (assign word value) := by
  rintro _ _ ⟨related, callers⟩
  exact .done () ⟨kept related, callers⟩

theorem beside_define {p : Position} {word : String} {value : Value}
    {last : Scopes → Scopes → Prop}
    (known : ∀ {r r'}, before r r' → r.inner.contains word = r'.inner.contains word)
    (refused : ∀ {r r'}, before r r' → failing r r')
    (kept : ∀ {r r'}, before r r' → r.inner.contains word = false →
      last ⟨r.inner.set word value, r.outer⟩ ⟨r'.inner.set word value, r'.outer⟩) :
    Beside c before (fun _ => last) failing (define p word value) (define p word value) := by
  rintro _ _ @⟨r, r', calls, calls', store, console, related, callers⟩
  have same := known related
  unfold define Scopes.define
  dsimp only
  cases bound : r.inner.contains word with
  | true =>
      rw [← same, bound]
      exact .failed (c.failure _ p callers) ⟨refused related, callers⟩
  | false =>
      rw [← same, bound]
      exact .done () ⟨kept related bound, callers⟩

variable {before' failing' : Scopes → Scopes → Prop} {after' : α → Scopes → Scopes → Prop}

/-- Closing on both sides what was opened there. -/
theorem beside_closed {o o' : Outcome α} {f f' : State → State}
    (close : ∀ {P Q : Scopes → Scopes → Prop}, (∀ {r r'}, P r r' → Q r.pop r'.pop) →
      ∀ {s s' : State}, s.Beside c P s' → (f s).Beside c Q (f' s'))
    (done : ∀ {a r r'}, after' a r r' → after a r.pop r'.pop)
    (failed : ∀ {r r'}, failing' r r' → failing r.pop r'.pop)
    (ended : o.Beside c after' failing' o') :
    (o.mapState f).Beside c after failing (o'.mapState f') := by
  cases ended with
  | done a states => exact .done a (close done states)
  | failed failures states => exact .failed failures (close failed states)
  | aborted => exact .aborted
  | exhausted => exact .exhausted

theorem beside_inScope {x y : Run α} (opened : ∀ {r r'}, before r r' → before' r.push r'.push)
    (done : ∀ {a r r'}, after' a r r' → after a r.pop r'.pop)
    (failed : ∀ {r r'}, failing' r r' → failing r.pop r'.pop)
    (body : Beside c before' after' failing' x y) :
    Beside c before after failing (inScope x) (inScope y) := by
  rintro _ _ ⟨related, callers⟩
  refine beside_closed ?_ done failed (body _ _ ⟨opened related, callers⟩)
  rintro P Q popped _ _ ⟨related, callers⟩
  exact ⟨popped related, callers⟩

theorem beside_inCall {frame : Frame} {x y : Run α}
    (opened : ∀ {r r'}, before r r' → before' r.push r'.push)
    (done : ∀ {a r r'}, after' a r r' → after a r.pop r'.pop)
    (failed : ∀ {r r'}, failing' r r' → failing r.pop r'.pop)
    (body : Beside c before' after' failing' x y) :
    Beside c before after failing (inCall frame x) (inCall frame y) := by
  rintro _ _ ⟨related, callers⟩
  refine beside_closed ?_ done failed (body _ _ ⟨opened related, c.push frame callers⟩)
  rintro P Q popped _ _ ⟨related, callers⟩
  exact ⟨popped related, c.pop callers⟩

end Run

namespace Eval

variable {t u : FunctionTable} {c : Callers} {R : Scopes → Scopes → Prop}

/-- A name that is bound alike on both sides, or else stands for a function on both or neither. -/
theorem keep_name {p : Position} {word : String}
    (found : ∀ {r r'}, R r r' → r.lookup word = r'.lookup word)
    (names : ∀ {r r'}, R r r' → r.lookup word = none → t.names word = u.names word) :
    Run.KeepBeside c R (Eval.name t p word) (Eval.name u p word) := by
  refine Run.beside_scopes fun {r r'} related => ?_
  rw [← found related]
  cases bound : r.lookup word with
  | some value => exact Run.beside_pure id
  | none =>
      rw [← names related bound]
      dsimp only
      split
      · exact Run.beside_pure id
      · exact Run.beside_fail id p _

theorem keep_entryKey {p : Position} {key : EntryKey}
    (found : ∀ {r r'}, R r r' → ∀ word, key = .name word → r.lookup word = r'.lookup word) :
    Run.KeepBeside c R (Eval.entryKey p key) (Eval.entryKey p key) := by
  cases key with
  | literal text => exact Run.beside_pure id
  | name word =>
      refine Run.beside_scopes fun {r r'} related => ?_
      rw [← found related word rfl]
      split
      · exact Run.beside_pure id
      · exact Run.beside_pure id
      · exact (Run.beside_attempt id p _).bind fun _ => Run.beside_fail id p _

/-- A family of relations between scopes, each of which the expressions keep. -/
def beside {ι : Type} (c : Callers) (R : ι → Scopes → Scopes → Prop) {s : Sites}
    (nodes : Admission s) (like : Function → Function → Prop) (maps : Prop)
    (name : ∀ {p word}, nodes.admits (.name p word) → ∀ i,
      Run.KeepBeside c (R i) (Eval.name t p word) (Eval.name u p word))
    (entryKey : ∀ {p entries entry}, nodes.admits (.dict p entries) → entry ∈ entries → ∀ i,
      Run.KeepBeside c (R i) (Eval.entryKey p entry.1) (Eval.entryKey p entry.1))
    (assign : ∀ {p word e} (value : Value), nodes.admits (.assign p word e) → ∀ i {r r'}, R i r r' →
      R i (r.assign word value) (r'.assign word value))
    (callee : ∀ {α : Type} {p callee args} {x y : String → Callee → Run α},
      nodes.admits (.call p callee args) →
      (∀ {target f g}, t.callee target args.length = .ok f → Matches like maps f g →
        ∀ i, Run.KeepBeside c (R i) (x target f) (y target g)) →
      ∀ i {r r'}, R i r r' → Run.KeepBeside c (R i)
        (Run.check p (t.callee (r.target callee) args.length) >>= x (r.target callee))
        (Run.check p (u.callee (r'.target callee) args.length) >>= y (r'.target callee)))
    (apply : ∀ {α : Type} {p name count} {x y : Callee → Run α}, maps → s.calls p count →
      (∀ {f g}, t.callee name count = .ok f → Matches like maps f g →
        ∀ i, Run.KeepBeside c (R i) (x f) (y g)) →
      ∀ i, Run.KeepBeside c (R i) (Run.check p (t.callee name count) >>= x)
        (Run.check p (u.callee name count) >>= y)) :
    Tandem nodes t u where
  like := like
  maps := maps
  term x y := ∀ i, Run.KeepBeside c (R i) x y
  call x y := ∀ i, Run.KeepBeside c (R i) x y
  term_of_call := id
  call_pure _ _ := Run.beside_pure id
  call_bind first second i := (first i).bind fun a => second a i
  term_bind first second i := (first i).bind fun a => second a i
  call_fail fault _ _ := Run.beside_fail id _ fault
  call_attempt operation _ _ := Run.beside_attempt id _ operation
  call_make create _ := Run.beside_make create
  call_writeLine line _ := Run.beside_writeLine line
  call_readLine _ := Run.beside_readLine
  term_write place value _ := Run.beside_write place value
  term_name := name
  term_entryKey := entryKey
  term_assign value own i := Run.beside_assign (assign value own i)
  term_callee own alike i := Run.beside_scopes (callee own alike i)
  call_callee := apply

end Eval

end Script
