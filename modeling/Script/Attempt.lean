/-
# Script.Attempt -- operations on values, and why they end without a result

Besides a fault, which a program reports, there are two ways to end: rendering or
comparing a value that contains itself never finishes, and a run stops dead when it
visits a list that is being written at that moment.
-/
import Script.Fault

namespace Script

set_option autoImplicit false

inductive Halt where
  | fault (cause : Fault)
  | aborted
  | endless
deriving DecidableEq

/-- The result of an operation on values, or why there is none. -/
abbrev Attempt (α : Type) : Type := Except Halt α

namespace Attempt

def fail {α : Type} (cause : Fault) : Attempt α :=
  .error (.fault cause)

end Attempt

end Script
