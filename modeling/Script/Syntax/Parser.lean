/-
# Script.Syntax.Parser -- the grammar

```text
program    = { borrowing | function }
borrowing  = "import" name "." name [ "as" name ]
function   = "fun" name "(" [ name { "," name } ] ")" block
block      = "{" { statement } "}"
statement  = "var" name "=" expr | "return" [ expr ] | block | expr
           | "if" "(" expr ")" block [ "else" block ]
           | "for" "(" [ "var" name "=" expr | expr ] ";" [ expr ] ";" [ expr ] ")" block
expr       = operation [ "=" expr ]
operation  = unary { operator unary }
unary      = ( "!" | "-" ) unary | primary { "[" expr "]" | "." name [ args ] }
primary    = literal | list | dict | name [ args ] | "(" expr ")"
args       = "(" [ expr { "," expr } ] ")"
list       = "[" [ expr { "," expr } ] "]"
dict       = "<" [ entry { "," entry } ] ">"
entry      = ( string | name ) ":" expr
```

Operators of one level group to the left, those of a higher level first.  The value
of a dictionary entry ends at a `>`; between brackets of any other kind it is an operator
again.  A `return` without a value stands directly before the closing brace.

The readers take a number of steps they may still make, and each hands one less to
the readers it calls.  `Program.ofText` gives enough of them for the tokens of the
text, since no more than eight calls pass between two tokens taken.
-/
import Script.FunctionTable
import Script.Syntax.Reader

namespace Script

set_option autoImplicit false

namespace BinaryOp

/-- The operator a token stands for; `greater` tells whether `>` is one. -/
def ofKind? (greater : Bool) : Token.Kind → Option BinaryOp
  | .sign .pipe => some or
  | .sign .ampersand => some and
  | .sign .equal => some equal
  | .sign .notEqual => some notEqual
  | .sign .less => some less
  | .sign .lessEqual => some lessEqual
  | .sign .greater => if greater then some .greater else none
  | .sign .greaterEqual => some greaterEqual
  | .sign .plus => some add
  | .sign .minus => some subtract
  | .sign .star => some multiply
  | .sign .slash => some divide
  | .sign .percent => some remainder
  | _ => none

/-- The operator a token stands for, if it binds at least as tightly as `level`. -/
def atLevel? (greater : Bool) (level : Nat) (kind : Token.Kind) : Option BinaryOp :=
  (ofKind? greater kind).filter (level ≤ ·.level)

end BinaryOp

namespace UnaryOp

/-- The operator a token stands for in front of an operand. -/
def ofKind? : Token.Kind → Option UnaryOp
  | .sign .minus => some negate
  | .sign .bang => some not
  | _ => none

end UnaryOp

namespace Parser

open Reader

/-- The expression a token stands for by itself. -/
def literal? (token : Token) : Option Expr :=
  match token.kind with
  | .number value => some (.number token.position value)
  | .string => some (.string token.position token.text)
  | .typeName tag => some (.typeName token.position tag)
  | .keyword .true => some (.bool token.position true)
  | .keyword .false => some (.bool token.position false)
  | .keyword .null => some (.null token.position)
  | _ => none

/-- The assignment of `value` to `target`, by a sign at `position`. -/
def assignment (target value : Expr) (position : Position) : Reader Expr :=
  match target with
  | .name p name => return .assign p name value
  | .index p list index => return .setIndex p list index value
  | _ => failAt position .invalidAssignmentTarget

mutual

/-- An expression; `greater` tells whether `>` is an operator in it. -/
def expr (greater : Bool) : Nat → Reader Expr
  | 0 => exhausted
  | steps + 1 => do
      let target ← operation greater 1 steps
      if ← sees .assign then
        let sign ← take
        let value ← expr greater steps
        assignment target value sign.position
      else return target

/-- Operands joined by operators that bind at least as tightly as `level`. -/
def operation (greater : Bool) (level : Nat) : Nat → Reader Expr
  | 0 => exhausted
  | steps + 1 => do
      let left ← unary steps
      operators greater level left steps

/-- The operators and operands that follow `left`. -/
def operators (greater : Bool) (level : Nat) (left : Expr) : Nat → Reader Expr
  | 0 => exhausted
  | steps + 1 => do
      match BinaryOp.atLevel? greater level (← kind) with
      | none => return left
      | some op =>
          let sign ← take
          let right ← operation greater (op.level + 1) steps
          operators greater level (.binary sign.position op left right) steps

def unary : Nat → Reader Expr
  | 0 => exhausted
  | steps + 1 => do
      match UnaryOp.ofKind? (← kind) with
      | some op =>
          let sign ← take
          let operand ← unary steps
          return .unary sign.position op operand
      | none =>
          let target ← primary steps
          accesses target steps

/-- The indexes, fields and methods that follow `target`. -/
def accesses (target : Expr) : Nat → Reader Expr
  | 0 => exhausted
  | steps + 1 => do
      match ← kind with
      | .sign .openBracket =>
          let bracket ← take
          let index ← expr true steps
          let _ ← expectSign .closeBracket
          accesses (.index bracket.position target index) steps
      | .sign .dot =>
          let _ ← take
          let name ← expectName
          if ← sees .openParen then
            let args ← arguments steps
            accesses (.method name.position target name.text args) steps
          else accesses (.field name.position target name.text) steps
      | _ => return target

def primary : Nat → Reader Expr
  | 0 => exhausted
  | steps + 1 => do
      let token ← current
      match literal? token with
      | some e =>
          let _ ← take
          return e
      | none =>
          match token.kind with
          | .sign .openBracket =>
              let _ ← take
              let items ← items .closeBracket steps
              let _ ← expectSign .closeBracket
              return .list token.position items
          | .sign .less =>
              let _ ← take
              let entries ← entries steps
              let _ ← expectSign .greater
              return .dict token.position entries
          | .name =>
              let _ ← take
              if ← sees .openParen then
                let args ← arguments steps
                return .call token.position token.text args
              else return .name token.position token.text
          | .sign .openParen =>
              let _ ← take
              let inner ← expr true steps
              let _ ← expectSign .closeParen
              return inner
          | _ => fail .badFactor

def arguments : Nat → Reader (List Expr)
  | 0 => exhausted
  | steps + 1 => do
      let _ ← expectSign .openParen
      let args ← items .closeParen steps
      let _ ← expectSign .closeParen
      return args

/-- Expressions with commas between them, none if the closing sign comes first. -/
def items (close : Sign) : Nat → Reader (List Expr)
  | 0 => exhausted
  | steps + 1 => do
      if ← sees close then return []
      else
        let first ← expr true steps
        let rest ← moreItems steps
        return first :: rest

/-- Expressions with a comma before each. -/
def moreItems : Nat → Reader (List Expr)
  | 0 => exhausted
  | steps + 1 => do
      if ← accept (.sign .comma) then
        let item ← expr true steps
        let rest ← moreItems steps
        return item :: rest
      else return []

/-- The entries of a dictionary, none if it closes at once. -/
def entries : Nat → Reader (List (EntryKey × Expr))
  | 0 => exhausted
  | steps + 1 => do
      if ← sees .greater then return [] else someEntries steps

/-- Entries with commas between them. -/
def someEntries : Nat → Reader (List (EntryKey × Expr))
  | 0 => exhausted
  | steps + 1 => do
      let key ← entryKey
      let _ ← expectSign .colon
      let value ← expr false steps
      if ← accept (.sign .comma) then
        let rest ← someEntries steps
        return (key, value) :: rest
      else return [(key, value)]
where
  /-- The key of an entry: a string or a name. -/
  entryKey : Reader EntryKey := do
    match ← kind with
    | .string => return .literal (← take).text
    | .name => return .name (← take).text
    | _ => fail .expectedDictKey

end

/-- The name, the sign and the value of a declaration. -/
def declaration (steps : Nat) : Reader (Position × String × Expr) := do
  let _ ← expectWord .variable
  let name ← expectName
  let _ ← expectSign .assign
  let value ← expr true steps
  return (name.position, name.text, value)

/-- What stands before the first semicolon of a loop. -/
def loopStart (steps : Nat) : Reader LoopStart := do
  match ← kind with
  | .sign .semicolon => return .nothing
  | .keyword .variable =>
      let (position, name, value) ← declaration steps
      return .declare position name value
  | _ => return .expr (← expr true steps)

/-- An expression, absent if the closing sign comes first. -/
def optionalExpr (close : Sign) (steps : Nat) : Reader (Option Expr) := do
  if ← sees close then return none else return some (← expr true steps)

mutual

def statement : Nat → Reader Stmt
  | 0 => exhausted
  | steps + 1 => do
      let token ← current
      match token.kind with
      | .keyword .variable =>
          let (position, name, value) ← declaration steps
          return .declare position name value
      | .keyword .return =>
          let _ ← take
          return .return token.position (← optionalExpr .closeBrace steps)
      | .keyword .if =>
          let _ ← take
          let _ ← expectSign .openParen
          let condition ← expr true steps
          let _ ← expectSign .closeParen
          let yes ← block steps
          if ← accept (.keyword .else) then
            let no ← block steps
            return .branch token.position condition yes (some no)
          else return .branch token.position condition yes none
      | .keyword .for =>
          let _ ← take
          let _ ← expectSign .openParen
          let start ← loopStart steps
          let _ ← expectSign .semicolon
          let condition ← optionalExpr .semicolon steps
          let _ ← expectSign .semicolon
          let step ← optionalExpr .closeParen steps
          let _ ← expectSign .closeParen
          let body ← block steps
          return .loop token.position start condition step body
      | .sign .openBrace => return .block token.position (← block steps)
      | _ => return .expr (← expr true steps)

/-- Statements between braces. -/
def block : Nat → Reader (List Stmt)
  | 0 => exhausted
  | steps + 1 => do
      let _ ← expectSign .openBrace
      let body ← statements steps
      let _ ← expectSign .closeBrace
      return body

/-- Statements up to a closing brace. -/
def statements : Nat → Reader (List Stmt)
  | 0 => exhausted
  | steps + 1 => do
      if ← sees .closeBrace then return []
      else
        let first ← statement steps
        let rest ← statements steps
        return first :: rest

end

/-- Names with a comma before each. -/
def moreNames : Nat → Reader (List String)
  | 0 => exhausted
  | steps + 1 => do
      if ← accept (.sign .comma) then
        let name ← expectName
        let rest ← moreNames steps
        return name.text :: rest
      else return []

/-- The parameters of a function, between parentheses. -/
def params (steps : Nat) : Reader (List String) := do
  let _ ← expectSign .openParen
  let names ←
    if ← sees .closeParen then pure []
    else do
      let first ← expectName
      let rest ← moreNames steps
      pure (first.text :: rest)
  let _ ← expectSign .closeParen
  return names

/-- A function whose name none of the functions in `seen` has. -/
def function (seen : FunctionTable) (steps : Nat) : Reader Function := do
  let _ ← expectWord .function
  let name ← expectName
  if seen.contains name.text then failAt name.position (.duplicateFunction name.text)
  else
    let params ← params steps
    let body ← block steps
    return ⟨name.text, params, body, name.position⟩

/-- The name an imported function is called by. -/
def importName (name : Token) : Reader String := do
  if ← accept (.keyword .as) then
    let other ← expectName
    if other.text = name.text then failAt other.position (.aliasSameAsName other.text)
    else return other.text
  else return name.text

/-- An import that agrees with none in `seen`. -/
def importDecl (seen : List Import) : Reader Import := do
  let _ ← expectWord .import
  let module ← expectName
  if ← sees .dot then
    let _ ← take
    let name ← expectName
    let newName ← importName name
    let decl : Import := ⟨module.text, name.text, newName, name.position⟩
    if seen.any decl.agrees then
      failAt name.position (.duplicateImport module.text name.text)
    else return decl
  else fail .malformedImport

/-- The imports and functions up to the end of the text, after those of `seen`. -/
def program (seen : Program) : Nat → Reader Program
  | 0 => exhausted
  | steps + 1 => do
      match ← kind with
      | .endOfInput => return seen
      | .keyword .import =>
          let decl ← importDecl seen.imports
          program { seen with imports := seen.imports ++ [decl] } steps
      | .keyword .function =>
          let f ← function seen.functions steps
          program { seen with functions := seen.functions.add f.name f } steps
      | _ => fail .expectedItem

end Parser

namespace Program

/-- The program on a tape. -/
def ofTape (tape : Tape) : Except Stop Program := do
  let settled ← tape.settle
  let (p, _) ← Parser.program .empty (8 * tape.length + 8) settled
  return p

/-- The program a source text declares. -/
def ofText (source : String) : Except Stop Program :=
  ofTape (.ofText source)

end Program

end Script
