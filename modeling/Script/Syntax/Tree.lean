/-
# Script.Syntax.Tree -- expressions, statements, functions and programs

Every node carries the place that failures raised by it report: literals, names and
calls their first token, list and dictionary literals the opening bracket, operators
the operator, an index the bracket, a field or method its name, a declaration the
name it declares, any other statement its keyword or first token.
-/
import Script.Position
import Script.TypeTag

namespace Script

set_option autoImplicit false

inductive BinaryOp where
  | or
  | and
  | equal
  | notEqual
  | less
  | lessEqual
  | greater
  | greaterEqual
  | add
  | subtract
  | multiply
  | divide
  | remainder
deriving DecidableEq, Repr

namespace BinaryOp

def all : List BinaryOp :=
  [or, and, equal, notEqual, less, lessEqual, greater, greaterEqual, add, subtract, multiply,
    divide, remainder]

def symbol : BinaryOp → String
  | or => "|"
  | and => "&"
  | equal => "=="
  | notEqual => "!="
  | less => "<"
  | lessEqual => "<="
  | greater => ">"
  | greaterEqual => ">="
  | add => "+"
  | subtract => "-"
  | multiply => "*"
  | divide => "/"
  | remainder => "%"

/-- How tightly the operator binds, from the loosest up. -/
def level : BinaryOp → Nat
  | or => 1
  | and => 2
  | equal | notEqual => 3
  | less | lessEqual | greater | greaterEqual => 4
  | add | subtract => 5
  | multiply | divide | remainder => 6

def ofSymbol? (symbol : String) : Option BinaryOp :=
  all.find? (·.symbol = symbol)

end BinaryOp

inductive UnaryOp where
  | negate
  | not
deriving DecidableEq, Repr

namespace UnaryOp

def symbol : UnaryOp → String
  | negate => "-"
  | not => "!"

end UnaryOp

/-- The key of an entry in a dictionary literal.  A bare name stands for the string its variable
holds, and for its own text when no variable has that name. -/
inductive EntryKey where
  | literal (text : String)
  | name (text : String)
deriving DecidableEq, Repr

namespace EntryKey

def text : EntryKey → String
  | literal text => text
  | name text => text

end EntryKey

inductive Expr where
  | number (position : Position) (value : Float)
  | string (position : Position) (text : String)
  | bool (position : Position) (value : Bool)
  | null (position : Position)
  | typeName (position : Position) (tag : TypeTag)
  | list (position : Position) (items : List Expr)
  | dict (position : Position) (entries : List (EntryKey × Expr))
  | name (position : Position) (name : String)
  | assign (position : Position) (name : String) (value : Expr)
  | binary (position : Position) (op : BinaryOp) (left right : Expr)
  | unary (position : Position) (op : UnaryOp) (operand : Expr)
  | index (position : Position) (target index : Expr)
  | setIndex (position : Position) (target index value : Expr)
  | field (position : Position) (target : Expr) (name : String)
  | method (position : Position) (target : Expr) (name : String) (args : List Expr)
  | call (position : Position) (callee : String) (args : List Expr)
deriving Inhabited

namespace Expr

/-- The place that failures raised by the expression itself report. -/
def position : Expr → Position
  | number p _ | string p _ | bool p _ | null p | typeName p _ | list p _ | dict p _ | name p _
  | assign p _ _ | binary p _ _ _ | unary p _ _ | index p _ _ | setIndex p _ _ _ | field p _ _
  | method p _ _ _ | call p _ _ => p

end Expr

/-- What a loop does before its first round. -/
inductive LoopStart where
  | nothing
  | declare (position : Position) (name : String) (value : Expr)
  | expr (expr : Expr)
deriving Inhabited

inductive Stmt where
  | declare (position : Position) (name : String) (value : Expr)
  | expr (expr : Expr)
  | return (position : Position) (value : Option Expr)
  | branch (position : Position) (condition : Expr) (yes : List Stmt) (no : Option (List Stmt))
  | loop (position : Position) (start : LoopStart) (condition step : Option Expr)
      (body : List Stmt)
  | block (position : Position) (body : List Stmt)
deriving Inhabited

namespace Stmt

def position : Stmt → Position
  | declare p _ _ | .return p _ | branch p _ _ _ | loop p _ _ _ _ | block p _ => p
  | expr e => e.position

end Stmt

structure Function where
  name : String
  params : List String
  body : List Stmt
  position : Position
deriving Inhabited

namespace Function

def arity (f : Function) : Nat :=
  f.params.length

end Function

/-- A function taken from a module, and the new name it is called by. -/
structure Import where
  module : String
  name : String
  newName : String
  position : Position
deriving DecidableEq, Repr, Inhabited

namespace Import

/-- The same function of the same module under the same name. -/
def agrees (i j : Import) : Bool :=
  i.module = j.module && i.name = j.name && i.newName = j.newName

end Import

end Script
