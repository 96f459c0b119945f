/-
# Script.Intrinsic -- the functions every program can call

Their names come before all others: a function of the program that has one of them
is never called.
-/
import Script.Fault

namespace Script

set_option autoImplicit false

inductive Intrinsic where
  | println
  | size
  | map
  | readln
  | toNumber
  | toString
  | typeOf
deriving DecidableEq, Repr

namespace Intrinsic

def all : List Intrinsic :=
  [println, size, map, readln, toNumber, toString, typeOf]

def name : Intrinsic → String
  | println => "println"
  | size => "size"
  | map => "map"
  | readln => "readln"
  | toNumber => "toNumber"
  | toString => "toString"
  | typeOf => "typeOf"

def ofName? (name : String) : Option Intrinsic :=
  all.find? (·.name = name)

theorem ofName?_name (i : Intrinsic) : ofName? i.name = some i := by
  cases i <;> decide

/-- Whether the function can be called with so many arguments. -/
def accepts (i : Intrinsic) (count : Nat) : Bool :=
  match i with
  | println => count ≤ 1
  | readln => count = 0
  | map => count = 2
  | size | toNumber | toString | typeOf => count = 1

/-- How a message speaks of the arguments the function takes. -/
def expected : Intrinsic → String
  | println => "at most 1 argument"
  | readln => "0 arguments"
  | map => "2 arguments"
  | size | toNumber | toString | typeOf => "1 argument"

/-- The fault of calling the function with other arguments. -/
def arityFault (i : Intrinsic) : Fault :=
  .intrinsicArity i.name i.expected

end Intrinsic

end Script
