/-
# Script.Module.Linker -- functions from other modules

An import takes one function from a module and enters it in the table of the program
under its new name.  The imports of the module itself are not followed.  Imports are
taken in order and the first that cannot be satisfied ends the linking; what was
entered before it stays.

A module is asked for once.  Only one that was found and could be read is
remembered, so asking again for one that failed fails again.
-/
import Script.Module.Provider
import Script.Syntax.Parser

namespace Script.Module

set_option autoImplicit false

/-- A module that was read. -/
structure Loaded where
  label : String
  functions : FunctionTable
deriving Inhabited

/-- The modules read so far, by name. -/
structure Linker where
  loaded : List (String × Loaded)
deriving Inhabited

/-- What linking came to: its result, the modules read, and the table as far as it got. -/
structure Linked where
  result : Except Stop Unit
  linker : Linker
  functions : FunctionTable

namespace Linker

def empty : Linker := ⟨[]⟩

/-- The number of modules read so far. -/
def count (l : Linker) : Nat :=
  l.loaded.length

/-- The module that a source is. -/
def read (source : Source) : Except Stop Loaded := do
  let program ← Program.ofText source.code
  return ⟨source.label, program.functions⟩

/-- The answer of a provider as a module, for an import that asks for it. -/
def receive (decl : Import) : Option Source → Except Stop Loaded
  | some source => read source
  | none => .error (.failed (.ofFault (.moduleNotFound decl.module) decl.position))

/-- Remembers a module that was read. -/
def remember (l : Linker) (module : String) : Except Stop Loaded → Linker
  | .ok loaded => ⟨l.loaded ++ [(module, loaded)]⟩
  | .error _ => l

/-- The table with the function that an import takes from a module. -/
def enter (decl : Import) (functions : FunctionTable) (loaded : Loaded) :
    Except Stop FunctionTable :=
  match loaded.functions.find? decl.name with
  | none =>
      .error (.failed (.ofFault (.functionNotInModule decl.module decl.name loaded.label)
        decl.position))
  | some f =>
      if functions.contains decl.newName then
        .error (.failed (.ofFault (.aliasCollision decl.newName) decl.position))
      else .ok (functions.add decl.newName f)

variable {m : Type → Type} [Monad m]

/-- The module that an import asks for, and the modules read then. -/
def load (provider : Provider m) (l : Linker) (decl : Import) :
    m (Except Stop Loaded × Linker) :=
  match l.loaded.lookup decl.module with
  | some loaded => pure (.ok loaded, l)
  | none => do
      let loaded := receive decl (← provider decl.module)
      pure (loaded, l.remember decl.module loaded)

/-- Enters the imports in a table, one after the other. -/
def link (provider : Provider m) (l : Linker) (functions : FunctionTable) :
    List Import → m Linked
  | [] => pure ⟨.ok (), l, functions⟩
  | decl :: rest => do
      let (loaded, l) ← load provider l decl
      match loaded.bind (enter decl functions) with
      | .error stop => pure ⟨.error stop, l, functions⟩
      | .ok functions => link provider l functions rest

end Linker

/-- The table of a program whose imports are satisfied. -/
def linkText {m : Type → Type} [Monad m] (provider : Provider m) (source : String) :
    m (Except Stop FunctionTable) :=
  match Program.ofText source with
  | .error stop => pure (.error stop)
  | .ok program => do
      let linked ← Linker.empty.link provider program.functions program.imports
      pure (linked.result.map fun _ => linked.functions)

end Script.Module
