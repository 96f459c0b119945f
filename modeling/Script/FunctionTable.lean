/-
# Script.FunctionTable -- functions by the name they are called by

An imported function stands under its new name and keeps the name and the place of its
own declaration.
-/
import Script.Syntax.Tree

namespace Script

set_option autoImplicit false

structure FunctionTable where
  entries : List (String × Function)
deriving Inhabited

namespace FunctionTable

def empty : FunctionTable := ⟨[]⟩

def find? (t : FunctionTable) (name : String) : Option Function :=
  t.entries.lookup name

def contains (t : FunctionTable) (name : String) : Bool :=
  (t.find? name).isSome

/-- The table with `f` under a name that it does not hold yet. -/
def add (t : FunctionTable) (name : String) (f : Function) : FunctionTable :=
  ⟨t.entries ++ [(name, f)]⟩

/-- The entries in the order of their names. -/
def byName (t : FunctionTable) : List (String × Function) :=
  t.entries.mergeSort fun a b => decide (a.1 ≤ b.1)

/-- The functions in the order of their declarations. -/
def byPosition (t : FunctionTable) : List Function :=
  (t.entries.map (·.2)).mergeSort fun f g =>
    f.position.line < g.position.line ||
      f.position.line = g.position.line && f.position.column ≤ g.position.column

theorem find?_empty (name : String) : empty.find? name = none := rfl

theorem find?_add (t : FunctionTable) (name other : String) (f : Function) :
    (t.add name f).find? other =
      (t.find? other).or (if other = name then some f else none) := by
  simp only [add, find?, List.lookup_append, List.lookup_cons, List.lookup_nil]
  by_cases same : other = name
  · simp [same]
  · simp [same, beq_false_of_ne same]

end FunctionTable

/-- A source text as read: the functions it declares and the imports it asks for, in order. -/
structure Program where
  functions : FunctionTable
  imports : List Import
deriving Inhabited

namespace Program

def empty : Program := ⟨.empty, []⟩

end Program

end Script
