/-
# Script.Eval.Run -- computations in a running program

A running program has scopes, calls, a store and a console.  A computation changes
these and ends in one of four ways: with a result, with a failure, dead in its
tracks, or without an end within the steps allowed.  What it changed before a
failure stays changed.

Scopes and calls are opened and closed by `inScope` and `inCall` alone, which close
them however the computation between ends.
-/
import Script.Access
import Script.CallStack
import Script.Console
import Script.Operator
import Script.Scopes

namespace Script

set_option autoImplicit false

structure State where
  scopes : Scopes
  calls : CallStack
  store : Store
  console : Console

namespace State

/-- Nothing bound, nothing running, nothing stored. -/
def start (input : Input) : State :=
  ⟨.start, .empty, .empty, .ofInput input⟩

end State

/-- How a computation ends. -/
inductive Outcome (α : Type) where
  | done (result : α) (state : State)
  | failed (failure : Failure) (state : State)
  | aborted
  | exhausted

namespace Outcome

/-- The outcome with a change to the state that is left behind. -/
@[inline] def mapState {α : Type} (f : State → State) : Outcome α → Outcome α
  | done result state => done result (f state)
  | failed failure state => failed failure (f state)
  | aborted => aborted
  | exhausted => exhausted

end Outcome

/-- A computation in a running program. -/
def Run (α : Type) : Type := State → Outcome α

namespace Run

variable {α β : Type}

@[inline] def pure (a : α) : Run α :=
  fun s => .done a s

@[inline] def bind (x : Run α) (f : α → Run β) : Run β :=
  fun s =>
    match x s with
    | .done a s => f a s
    | .failed failure s => .failed failure s
    | .aborted => .aborted
    | .exhausted => .exhausted

instance : Monad Run where
  pure := Run.pure
  bind := Run.bind

/-- The steps allowed are used up. -/
def exhausted : Run α :=
  fun _ => .exhausted

/-- Fails at a place. -/
def fail (position : Position) (fault : Fault) : Run α :=
  fun s => .failed (s.calls.failure fault position) s

/-- The result of a check; its fault is a failure at a place. -/
@[inline] def check (position : Position) (x : Except Fault α) : Run α :=
  match x with
  | .ok a => Run.pure a
  | .error fault => fail position fault

/-- The result of an operation on values; its fault is a failure at a place. -/
@[inline] def attempt (position : Position) (operation : Store → Attempt α) : Run α :=
  fun s =>
    match operation s.store with
    | .ok a => .done a s
    | .error (.fault fault) => .failed (s.calls.failure fault position) s
    | .error .aborted => .aborted
    | .error .endless => .exhausted

/-- The scopes. -/
@[inline] def scopes : Run Scopes :=
  fun s => .done s.scopes s

/-- Whether a value counts as true. -/
def truthy (v : Value) : Run Bool :=
  fun s => .done (s.store.truthy v) s

/-- Makes something in the store. -/
@[inline] def make (create : Store → Value × Store) : Run Value
  | ⟨scopes, calls, store, console⟩ =>
    let (value, store) := create store
    .done value ⟨scopes, calls, store, console⟩

/-- Writes a value to a place of the store. -/
def write (place : Place) (value : Value) : Run Unit
  | ⟨scopes, calls, store, console⟩ =>
    .done () ⟨scopes, calls, store.write place value, console⟩

/-- Writes a line. -/
def writeLine (line : String) : Run Unit
  | ⟨scopes, calls, store, console⟩ =>
    .done () ⟨scopes, calls, store, console.writeLine line⟩

/-- Reads a line, the empty one at the end of the input. -/
def readLine : Run String
  | ⟨scopes, calls, store, console⟩ =>
    let (line, console) := console.readLine
    .done (line.getD "") ⟨scopes, calls, store, console⟩

/-- Binds a new name in the innermost scope. -/
def define (position : Position) (name : String) (value : Value) : Run Unit :=
  fun s =>
    match s.scopes.define name value with
    | .ok scopes => .done () { s with scopes }
    | .error fault => .failed (s.calls.failure fault position) s

/-- Overwrites the nearest binding of a name, or makes one. -/
def assign (name : String) (value : Value) : Run Unit :=
  fun s => .done () { s with scopes := s.scopes.assign name value }

/-- Computes in a scope of its own. -/
@[inline] def inScope (body : Run α) : Run α :=
  fun s =>
    (body { s with scopes := s.scopes.push }).mapState fun s =>
      { s with scopes := s.scopes.pop }

/-- Computes as a call, in a scope of its own. -/
@[inline] def inCall (frame : Frame) (body : Run α) : Run α :=
  fun s =>
    (body { s with scopes := s.scopes.push, calls := s.calls.push frame }).mapState fun s =>
      { s with scopes := s.scopes.pop, calls := s.calls.pop }

end Run

end Script
