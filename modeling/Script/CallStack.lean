/-
# Script.CallStack -- the calls that are running

The innermost call comes first.
-/
import Script.Failure

namespace Script

set_option autoImplicit false

structure CallStack where
  frames : List Frame
deriving DecidableEq, Inhabited

namespace CallStack

def empty : CallStack := ⟨[]⟩

def depth (c : CallStack) : Nat :=
  c.frames.length

def isEmpty (c : CallStack) : Bool :=
  c.frames.isEmpty

def push (c : CallStack) (frame : Frame) : CallStack :=
  ⟨frame :: c.frames⟩

def pop (c : CallStack) : CallStack :=
  ⟨c.frames.tail⟩

@[simp] theorem pop_push (c : CallStack) (frame : Frame) : (c.push frame).pop = c := rfl

@[simp] theorem depth_push (c : CallStack) (frame : Frame) :
    (c.push frame).depth = c.depth + 1 := rfl

/-- The failure that a fault at a place is while these calls are running. -/
def failure (c : CallStack) (fault : Fault) (position : Position) : Failure :=
  ⟨fault, position, c.frames⟩

end CallStack

end Script
