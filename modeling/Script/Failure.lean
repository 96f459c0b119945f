/-
# Script.Failure -- a fault, where it happened, and the calls that led there

A trace lists the calls that were running, the innermost first, each with the place
it was called from.  A fault found before anything runs has an empty trace.
-/
import Script.Fault

namespace Script

set_option autoImplicit false

/-- A running call: the name it was made under and the place of the call. -/
structure Frame where
  name : String
  position : Position
deriving DecidableEq, Repr

namespace Frame

/-- The line of a trace that shows the call. -/
def text (f : Frame) : String :=
  "  at " ++ f.name ++ " (" ++ f.position.text ++ ")"

end Frame

/-- A fault at a place, with the running calls, innermost first. -/
structure Failure where
  fault : Fault
  position : Position
  trace : List Frame
deriving DecidableEq

namespace Failure

/-- A fault found before anything runs. -/
def ofFault (fault : Fault) (position : Position) : Failure :=
  ⟨fault, position, []⟩

/-- Message and place, without the trace. -/
def headline (f : Failure) : String :=
  f.fault.message ++ " at " ++ f.position.text

/-- Message and place, then the trace line by line. -/
def text (f : Failure) : String :=
  "\n".intercalate (f.headline :: f.trace.map Frame.text)

end Failure

/-- Why a computation ends without a result: it failed, or it used up the steps it was given. -/
inductive Stop where
  | failed (failure : Failure)
  | exhausted
deriving DecidableEq

end Script
