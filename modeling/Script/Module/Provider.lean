/-
# Script.Module.Provider -- where the sources of modules come from

A provider answers the name of a module with its source text and a label that tells
messages where the text was found.  It may have to look outside the program, so it
answers in a monad; one that knows its modules answers in any.
-/
import Script.Module.Standard

namespace Script.Module

set_option autoImplicit false

structure Source where
  label : String
  code : String
deriving DecidableEq, Repr, Inhabited

/-- Answers the name of a module with its source, if it has one. -/
abbrev Provider (m : Type → Type) : Type := String → m (Option Source)

/-- The file that holds a module. -/
def fileName (module : String) : String :=
  module ++ ".ll"

namespace Provider

variable {m : Type → Type} [Monad m]

/-- No modules. -/
def none : Provider m :=
  fun _ => pure .none

/-- Modules given by name. -/
def memory (modules : List (String × String)) : Provider m :=
  fun module =>
    pure ((modules.lookup module).map fun code => ⟨"memory:" ++ fileName module, code⟩)

/-- Modules bundled as files, of which those in the folder `std` can be imported. -/
def bundle (files : List (String × String)) : Provider m :=
  fun module =>
    let path := "std/" ++ fileName module
    pure ((files.lookup path).map fun code => ⟨"bundle:" ++ path, code⟩)

/-- The modules that come with the language. -/
def standard : Provider m :=
  bundle [("std/std.ll", standardText)]

/-- The first answer that any of the providers has. -/
def firstOf : List (Provider m) → Provider m
  | [], _ => pure .none
  | provider :: rest, module => do
      match ← provider module with
      | some source => pure (some source)
      | .none => firstOf rest module

end Provider

end Script.Module
