/-
# Script.Scopes -- variables, by the innermost scope that has them

A scope binds names to values.  Scopes stand on one another, and a name means its
binding in the innermost scope that has one, wherever that scope was opened.  There is
always at least one scope: closing the last has no effect.
-/
import Script.Fault
import Script.Value

namespace Script

set_option autoImplicit false

structure Scope where
  bindings : List (String × Value)
deriving Inhabited

namespace Scope

def empty : Scope := ⟨[]⟩

def find? (s : Scope) (name : String) : Option Value :=
  s.bindings.lookup name

def contains (s : Scope) (name : String) : Bool :=
  (s.find? name).isSome

/-- The bindings with `name` bound to `value`, in place if it was bound. -/
def bind (name : String) (value : Value) : List (String × Value) → List (String × Value)
  | [] => [(name, value)]
  | (other, old) :: rest =>
      if other = name then (name, value) :: rest else (other, old) :: bind name value rest

def set (s : Scope) (name : String) (value : Value) : Scope :=
  ⟨bind name value s.bindings⟩

theorem find?_empty (name : String) : empty.find? name = none := rfl

theorem lookup_bind (name other : String) (value : Value) (bindings : List (String × Value)) :
    (bind name value bindings).lookup other =
      if other = name then some value else bindings.lookup other := by
  have cons (key : String) (v : Value) (rest : List (String × Value)) :
      ((key, v) :: rest).lookup other = if other = key then some v else rest.lookup other := by
    by_cases same : other = key
    · simp [same]
    · simp [List.lookup_cons, beq_false_of_ne same, same]
  induction bindings with
  | nil => simp only [bind, cons, List.lookup_nil]
  | cons b rest ih =>
      obtain ⟨key, old⟩ := b
      by_cases first : key = name
      · by_cases same : other = name <;> simp [bind, cons, first, same]
      · by_cases same : other = name
        · have away : other ≠ key := same ▸ Ne.symm first
          simp only [bind, first, if_false, cons, away, ih]
        · simp [bind, cons, first, ih, same]

/-- Setting a name changes what it is bound to and nothing else. -/
theorem find?_set (s : Scope) (name other : String) (value : Value) :
    (s.set name value).find? other = if other = name then some value else s.find? other :=
  lookup_bind name other value s.bindings

end Scope

/-- The innermost scope and those around it. -/
structure Scopes where
  inner : Scope
  outer : List Scope
deriving Inhabited

namespace Scopes

/-- One empty scope. -/
def start : Scopes := ⟨.empty, []⟩

def toList (s : Scopes) : List Scope :=
  s.inner :: s.outer

def depth (s : Scopes) : Nat :=
  s.outer.length + 1

/-- Opens an empty scope inside all others. -/
def push (s : Scopes) : Scopes :=
  ⟨.empty, s.toList⟩

/-- Closes the innermost scope, unless it is the last. -/
def pop (s : Scopes) : Scopes :=
  match s.outer with
  | [] => s
  | scope :: rest => ⟨scope, rest⟩

@[simp] theorem toList_push (s : Scopes) : s.push.toList = .empty :: s.toList := rfl

@[simp] theorem pop_push (s : Scopes) : s.push.pop = s := rfl

@[simp] theorem depth_push (s : Scopes) : s.push.depth = s.depth + 1 := rfl

/-- The nearest binding of a name. -/
def lookup (s : Scopes) (name : String) : Option Value :=
  s.toList.findSome? (·.find? name)

def has (s : Scopes) (name : String) : Bool :=
  s.toList.any (·.contains name)

/-- Binds a name in the innermost scope, which must not have it. -/
def define (s : Scopes) (name : String) (value : Value) : Except Fault Scopes :=
  if s.inner.contains name then .error (.alreadyDefined name)
  else .ok { s with inner := s.inner.set name value }

/-- Overwrites the nearest binding of a name, if any scope has one. -/
def overwrite? (name : String) (value : Value) : List Scope → Option (List Scope)
  | [] => none
  | scope :: rest =>
      if scope.contains name then some (scope.set name value :: rest)
      else (overwrite? name value rest).map (scope :: ·)

/-- Overwrites the nearest binding of a name, or binds it in the innermost scope. -/
def assign (s : Scopes) (name : String) (value : Value) : Scopes :=
  if s.inner.contains name then { s with inner := s.inner.set name value }
  else
    match overwrite? name value s.outer with
    | some outer => { s with outer }
    | none => { s with inner := s.inner.set name value }

end Scopes

end Script
