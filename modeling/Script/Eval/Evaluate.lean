/-
# Script.Eval.Evaluate -- what expressions, statements and calls do

Scoping is dynamic: the body of a function runs in a scope on top of its caller's,
and sees the caller's variables.  Operands are evaluated from left to right, both
sides of `&` and `|` always.  A call looks up the function and checks the number of arguments
before it evaluates any of them.

The evaluator takes a number of steps it may still make, and hands one less to every
part and to every further round of a loop.  With steps left over the number does not
matter.
-/
import Script.Conversion
import Script.Eval.Run
import Script.FunctionTable
import Script.Intrinsic

namespace Script

set_option autoImplicit false

/-- How a statement ends: the next one follows, or the function returns. -/
inductive Flow where
  | next
  | returned (value : Value)
deriving DecidableEq

/-- What a name means where it is called. -/
inductive Callee where
  | intrinsic (i : Intrinsic)
  | user (f : Function)

namespace FunctionTable

/-- The function called by a name with so many arguments. -/
def callee (t : FunctionTable) (name : String) (count : Nat) : Except Fault Callee :=
  match Intrinsic.ofName? name with
  | some i => if i.accepts count then .ok (.intrinsic i) else .error i.arityFault
  | none =>
      match t.find? name with
      | some f =>
          if f.arity = count then .ok (.user f) else .error (.functionArity name f.arity count)
      | none => .error (.undefinedFunction name)

/-- Whether a name stands for a function. -/
def names (t : FunctionTable) (name : String) : Bool :=
  t.contains name || (Intrinsic.ofName? name).isSome

end FunctionTable

namespace Scopes

/-- The name that a call of `callee` calls: that of the function its variable holds, if any. -/
def target (s : Scopes) (callee : String) : String :=
  match s.lookup callee with
  | some (.function name) => name
  | _ => callee

end Scopes

namespace Eval

/-- The value of a name: its variable, or else the function of that name. -/
def name (t : FunctionTable) (position : Position) (word : String) : Run Value := do
  match (← Run.scopes).lookup word with
  | some value => return value
  | none =>
      if t.names word then return .function word
      else Run.fail position (.undefinedVariable word)

/-- The key of an entry of the dictionary literal at `position`. -/
def entryKey (position : Position) (key : EntryKey) : Run String := do
  match key with
  | .literal text => return text
  | .name word =>
      match (← Run.scopes).lookup word with
      | none => return word
      | some (.string text) => return text
      | some other =>
          let got ← Run.attempt position (·.render other)
          Run.fail position (.keyNotString word got)

/-- Binds the parameters of the function called at `position`. -/
def bindParams (position : Position) : List String → List Value → Run Unit
  | param :: params, value :: values => do
      Run.define position param value
      bindParams position params values
  | _, _ => return ()

/-- The name of the function that a callback stands for. -/
def callbackName (position : Position) : Value → Run String
  | .function name | .string name => return name
  | _ => Run.fail position (.invalidArgument "map" "function reference or name")

/-- The value of a function whose body ended so. -/
def result : Flow → Value
  | .next => .null
  | .returned value => value

mutual

/-- The value of an expression. -/
def expr (t : FunctionTable) (e : Expr) : Nat → Run Value
  | 0 => Run.exhausted
  | steps + 1 =>
      match e with
      | .number _ x => return .number x
      | .string _ text => return .string text
      | .bool _ b => return .bool b
      | .null _ => return .null
      | .typeName _ tag => return .typeName tag
      | .list _ items => do
          let values ← exprs t items steps
          Run.make (·.newList values.toArray)
      | .dict p entries => do
          let entries ← dictEntries t p entries .empty steps
          Run.make (·.newDict entries)
      | .name p word => name t p word
      | .assign _ word value => do
          let value ← expr t value steps
          Run.assign word value
          return value
      | .binary p op left right => do
          let v ← expr t left steps
          let w ← expr t right steps
          let product ← Run.attempt p (·.binary op v w)
          Run.make (·.realize product)
      | .unary p op operand => do
          let v ← expr t operand steps
          Run.attempt p (·.unary op v)
      | .index p target index => do
          let v ← expr t target steps
          let i ← expr t index steps
          Run.attempt p (·.indexGet v i)
      | .setIndex p target index value => do
          let v ← expr t target steps
          let i ← expr t index steps
          let value ← expr t value steps
          let place ← Run.attempt p (·.place v i)
          Run.write place value
          return value
      | .field p target word => do
          let v ← expr t target steps
          Run.attempt p (·.fieldGet v word)
      | .method p target word _ => do
          let _ ← expr t target steps
          Run.fail p (.unknownMethod word)
      | .call p callee args => call t p callee args steps

/-- The values of expressions, from left to right. -/
def exprs (t : FunctionTable) (es : List Expr) : Nat → Run (List Value)
  | 0 => Run.exhausted
  | steps + 1 =>
      match es with
      | [] => return []
      | e :: rest => do
          let value ← expr t e steps
          let values ← exprs t rest steps
          return value :: values

/-- The dictionary `filled` with further entries of the literal at `position`. -/
def dictEntries (t : FunctionTable) (position : Position) (entries : List (EntryKey × Expr))
    (filled : Dict Value) : Nat → Run (Dict Value)
  | 0 => Run.exhausted
  | steps + 1 =>
      match entries with
      | [] => return filled
      | (key, e) :: rest => do
          let key ← entryKey position key
          let value ← expr t e steps
          dictEntries t position rest (filled.insert key value) steps

/-- The value of a call. -/
def call (t : FunctionTable) (position : Position) (callee : String) (args : List Expr) :
    Nat → Run Value
  | 0 => Run.exhausted
  | steps + 1 => do
      let target := (← Run.scopes).target callee
      let f ← Run.check position (t.callee target args.length)
      let values ← exprs t args steps
      invoke t position target f values steps

/-- The value of a function of the table, or of an intrinsic, with given arguments. -/
def apply (t : FunctionTable) (position : Position) (name : String) (args : List Value) :
    Nat → Run Value
  | 0 => Run.exhausted
  | steps + 1 => do
      let f ← Run.check position (t.callee name args.length)
      invoke t position name f args steps

/-- The value of a callee, called by `name`. -/
def invoke (t : FunctionTable) (position : Position) (name : String) (f : Callee)
    (args : List Value) : Nat → Run Value
  | 0 => Run.exhausted
  | steps + 1 =>
      match f with
      | .intrinsic i => intrinsic t position i args steps
      | .user f =>
          Run.inCall ⟨name, position⟩ do
            bindParams position f.params args
            return result (← statements t f.body steps)

/-- The value of an intrinsic.  `map` calls its callback on the items a list has at that moment,
and makes a new list of the results; on the characters of a string, and joins their texts. -/
def intrinsic (t : FunctionTable) (position : Position) (i : Intrinsic) (args : List Value) :
    Nat → Run Value
  | 0 => Run.exhausted
  | steps + 1 =>
      match i, args with
      | .println, [] => do
          Run.writeLine ""
          return .null
      | .println, [v] => do
          Run.writeLine (← Run.attempt position (·.render v))
          return .null
      | .readln, [] => return .string (← Run.readLine)
      | .size, [v] => return .number (Number.ofNat (← Run.attempt position (·.sizeOf v)))
      | .map, [v, callback] => do
          let name ← callbackName position callback
          match v with
          | .list a => do
              let items ← Run.attempt position fun store => .ok (store.items a)
              let results ← mapItems t position name items.toList steps
              Run.make (·.newList results.toArray)
          | .string text => return .string (← mapText t position name text.toList "" steps)
          | _ => Run.fail position (.invalidArgument "map" "list or string")
      | .toNumber, [v] => return .number (← Run.attempt position (·.coerce v))
      | .toString, [v] => return .string (← Run.attempt position (·.textOf v))
      | .typeOf, [v] => return .typeName (← Run.attempt position (·.typeOf v))
      | i, _ => Run.fail position i.arityFault

/-- The results of a function on items, in order. -/
def mapItems (t : FunctionTable) (position : Position) (name : String) (items : List Value) :
    Nat → Run (List Value)
  | 0 => Run.exhausted
  | steps + 1 =>
      match items with
      | [] => return []
      | item :: rest => do
          let value ← apply t position name [item] steps
          let values ← mapItems t position name rest steps
          return value :: values

/-- The texts of the results of a function on characters, after those already joined. -/
def mapText (t : FunctionTable) (position : Position) (name : String) (cs : List Char)
    (joined : String) : Nat → Run String
  | 0 => Run.exhausted
  | steps + 1 =>
      match cs with
      | [] => return joined
      | c :: rest => do
          let value ← apply t position name [.string (String.singleton c)] steps
          let text ← Run.attempt position (·.render value)
          mapText t position name rest (joined ++ text) steps

/-- Does what a statement says. -/
def statement (t : FunctionTable) (s : Stmt) : Nat → Run Flow
  | 0 => Run.exhausted
  | steps + 1 =>
      match s with
      | .declare p word value => do
          let value ← expr t value steps
          Run.define p word value
          return .next
      | .expr e => do
          let _ ← expr t e steps
          return .next
      | .return _ none => return .returned .null
      | .return _ (some e) => return .returned (← expr t e steps)
      | .branch _ condition yes no => do
          let v ← expr t condition steps
          if ← Run.truthy v then Run.inScope (statements t yes steps)
          else
            match no with
            | some no => Run.inScope (statements t no steps)
            | none => return .next
      | .loop _ start condition step body =>
          Run.inScope do
            match start with
            | .nothing => pure ()
            | .declare p word value => do
                let value ← expr t value steps
                Run.define p word value
            | .expr e => do
                let _ ← expr t e steps
            rounds t condition step body steps
      | .block _ body => Run.inScope (statements t body steps)

/-- The rounds of a loop, while its condition holds; without one it always does. -/
def rounds (t : FunctionTable) (condition step : Option Expr) (body : List Stmt) :
    Nat → Run Flow
  | 0 => Run.exhausted
  | steps + 1 => do
      let holds ← match condition with
        | none => pure true
        | some e => do Run.truthy (← expr t e steps)
      if holds then
        match ← Run.inScope (statements t body steps) with
        | .returned value => return .returned value
        | .next => do
            match step with
            | none => pure ()
            | some e => do
                let _ ← expr t e steps
            rounds t condition step body steps
      else return .next

/-- Statements one after the other, until one returns. -/
def statements (t : FunctionTable) (body : List Stmt) : Nat → Run Flow
  | 0 => Run.exhausted
  | steps + 1 =>
      match body with
      | [] => return .next
      | first :: rest => do
          match ← statement t first steps with
          | .returned value => return .returned value
          | .next => statements t rest steps

end

/-- The steps a run may make, more than any machine can. -/
def limit : Nat := 1000000000000000000

end Eval

/-- Calls a function of the table, or an intrinsic, from a place outside the program. -/
def Eval.callFunction (t : FunctionTable) (name : String) (args : List Value)
    (position : Position) : Run Value :=
  Eval.apply t position name args Eval.limit

/-- Runs a program: calls its function `main`. -/
def Eval.runMain (t : FunctionTable) : Run Value :=
  Eval.callFunction t "main" [] .start

end Script
