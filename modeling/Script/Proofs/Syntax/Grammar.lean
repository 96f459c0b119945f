/-
# Script.Proofs.Syntax.Grammar -- which tokens are written for which tree

```text
program    = { borrowing | function }
borrowing  = "import" name "." name [ "as" name ]
function   = "fun" name "(" [ name { "," name } ] ")" block
block      = "{" { statement } [ "return" ] "}"
statement  = declaration | "return" expr | block | expr
           | "if" "(" expr ")" block [ "else" block ]
           | "for" "(" [ declaration | expr ] ";" [ expr ] ";" [ expr ] ")" block
declaration = "var" name "=" expr
expr       = operation 1 | target "=" expr
target     = name | postfix "[" expr "]" | "(" target ")"
operation n = operation (n + 1) { operator-of-level-n operation (n + 1) }
operation 7 = unary
unary      = ( "!" | "-" ) unary | postfix
postfix    = primary { "[" expr "]" | "." name [ args ] }
primary    = literal | list | dict | name [ args ] | "(" expr ")"
args       = "(" [ expr { "," expr } ] ")"
list       = "[" [ expr { "," expr } ] "]"
dict       = "<" [ entry { "," entry } ] ">"
entry      = ( string | name ) ":" expr
```

Every production is a constructor that relates the tokens of a phrase to its tree, with
the place that the tree takes from one of them.  An expression carries whether `>` is an
operator in it: brackets of any kind make it one, the value of an entry unmakes it.
-/
import Script.FunctionTable
import Script.Token

namespace Script

set_option autoImplicit false

namespace BinaryOp

def sign : BinaryOp → Sign
  | or => .pipe
  | and => .ampersand
  | equal => .equal
  | notEqual => .notEqual
  | less => .less
  | lessEqual => .lessEqual
  | greater => .greater
  | greaterEqual => .greaterEqual
  | add => .plus
  | subtract => .minus
  | multiply => .star
  | divide => .slash
  | remainder => .percent

end BinaryOp

namespace UnaryOp

def sign : UnaryOp → Sign
  | negate => .minus
  | not => .bang

end UnaryOp

namespace Grammar

variable {α : Type}

/-- Parts with commas between them, at least one. -/
inductive Separated (Part : List Token → α → Prop) : List Token → List α → Prop where
  | last {tokens : List Token} {a : α} (part : Part tokens a) : Separated Part tokens [a]
  | more {tokens later : List Token} {comma : Token} {a : α} {rest : List α}
      (part : Part tokens a) (separates : comma.kind = .sign .comma)
      (others : Separated Part later rest) :
      Separated Part (tokens ++ [comma] ++ later) (a :: rest)

/-- Parts with commas between them, or nothing. -/
inductive Listing (Part : List Token → α → Prop) : List Token → List α → Prop where
  | none : Listing Part [] []
  | some {tokens : List Token} {parts : List α} (separated : Separated Part tokens parts) :
      Listing Part tokens parts

/-- A token that is an expression by itself. -/
inductive Literal : Token → Expr → Prop where
  | number {token : Token} {value : Float} (kind : token.kind = .number value) :
      Literal token (.number token.position value)
  | string {token : Token} (kind : token.kind = .string) :
      Literal token (.string token.position token.text)
  | typeName {token : Token} {tag : TypeTag} (kind : token.kind = .typeName tag) :
      Literal token (.typeName token.position tag)
  | yes {token : Token} (kind : token.kind = .keyword .true) :
      Literal token (.bool token.position true)
  | no {token : Token} (kind : token.kind = .keyword .false) :
      Literal token (.bool token.position false)
  | null {token : Token} (kind : token.kind = .keyword .null) :
      Literal token (.null token.position)

/-- The key of a dictionary entry. -/
inductive Key : Token → EntryKey → Prop where
  | literal {token : Token} (kind : token.kind = .string) : Key token (.literal token.text)
  | name {token : Token} (kind : token.kind = .name) : Key token (.name token.text)

mutual

/-- An expression; the boolean tells whether `>` is an operator in it. -/
inductive Expression : Bool → List Token → Expr → Prop where
  | operation {greater : Bool} {tokens : List Token} {e : Expr}
      (operation : Operation greater 1 tokens e) : Expression greater tokens e
  | assign {greater : Bool} {left right : List Token} {sign : Token} {p : Position}
      {name : String} {value : Expr} (target : Target left (.name p name))
      (assigns : sign.kind = .sign .assign) (expression : Expression greater right value) :
      Expression greater (left ++ [sign] ++ right) (.assign p name value)
  | setIndex {greater : Bool} {left right : List Token} {sign : Token} {p : Position}
      {list index value : Expr} (target : Target left (.index p list index))
      (assigns : sign.kind = .sign .assign) (expression : Expression greater right value) :
      Expression greater (left ++ [sign] ++ right) (.setIndex p list index value)

/-- What an assignment may change: a name or an index, in parentheses or not. -/
inductive Target : List Token → Expr → Prop where
  | name {token : Token} (kind : token.kind = .name) :
      Target [token] (.name token.position token.text)
  | index {tokens inside : List Token} {opening closing : Token} {list index : Expr}
      (target : Postfix tokens list) (opens : opening.kind = .sign .openBracket)
      (expression : Expression true inside index) (closes : closing.kind = .sign .closeBracket) :
      Target (tokens ++ [opening] ++ inside ++ [closing]) (.index opening.position list index)
  | group {tokens : List Token} {opening closing : Token} {e : Expr}
      (opens : opening.kind = .sign .openParen) (target : Target tokens e)
      (closes : closing.kind = .sign .closeParen) : Target (opening :: tokens ++ [closing]) e

/-- Operators that bind at least as tightly as the level, those of one level grouped to the left;
an operation at level 7 has no operator at all. -/
inductive Operation : Bool → Nat → List Token → Expr → Prop where
  | unary {greater : Bool} {tokens : List Token} {e : Expr} (unary : Unary tokens e) :
      Operation greater 7 tokens e
  | tighter {greater : Bool} {level : Nat} {tokens : List Token} {e : Expr}
      (operation : Operation greater (level + 1) tokens e) : Operation greater level tokens e
  | binary {greater : Bool} {op : BinaryOp} {left right : List Token} {sign : Token} {l r : Expr}
      (first : Operation greater op.level left l) (operator : sign.kind = .sign op.sign)
      (allowed : op = .greater → greater = true)
      (second : Operation greater (op.level + 1) right r) :
      Operation greater op.level (left ++ [sign] ++ right) (.binary sign.position op l r)

inductive Unary : List Token → Expr → Prop where
  | unary {op : UnaryOp} {tokens : List Token} {sign : Token} {e : Expr}
      (operator : sign.kind = .sign op.sign) (operand : Unary tokens e) :
      Unary (sign :: tokens) (.unary sign.position op e)
  | plain {tokens : List Token} {e : Expr} (operand : Postfix tokens e) : Unary tokens e

inductive Postfix : List Token → Expr → Prop where
  | primary {tokens : List Token} {e : Expr} (primary : Primary tokens e) : Postfix tokens e
  | index {tokens inside : List Token} {opening closing : Token} {list index : Expr}
      (target : Postfix tokens list) (opens : opening.kind = .sign .openBracket)
      (expression : Expression true inside index) (closes : closing.kind = .sign .closeBracket) :
      Postfix (tokens ++ [opening] ++ inside ++ [closing]) (.index opening.position list index)
  | field {tokens : List Token} {dot name : Token} {e : Expr} (target : Postfix tokens e)
      (points : dot.kind = .sign .dot) (names : name.kind = .name) :
      Postfix (tokens ++ [dot] ++ [name]) (.field name.position e name.text)
  | method {tokens inside : List Token} {dot name : Token} {e : Expr} {args : List Expr}
      (target : Postfix tokens e) (points : dot.kind = .sign .dot) (names : name.kind = .name)
      (arguments : Arguments inside args) :
      Postfix (tokens ++ [dot] ++ [name] ++ inside) (.method name.position e name.text args)

inductive Primary : List Token → Expr → Prop where
  | literal {token : Token} {e : Expr} (literal : Literal token e) : Primary [token] e
  | list {tokens : List Token} {opening closing : Token} {items : List Expr}
      (opens : opening.kind = .sign .openBracket) (listing : Listing (Expression true) tokens items)
      (closes : closing.kind = .sign .closeBracket) :
      Primary (opening :: tokens ++ [closing]) (.list opening.position items)
  | dict {tokens : List Token} {opening closing : Token} {entries : List (EntryKey × Expr)}
      (opens : opening.kind = .sign .less) (listing : Listing Entry tokens entries)
      (closes : closing.kind = .sign .greater) :
      Primary (opening :: tokens ++ [closing]) (.dict opening.position entries)
  | name {token : Token} (kind : token.kind = .name) :
      Primary [token] (.name token.position token.text)
  | call {tokens : List Token} {token : Token} {args : List Expr} (kind : token.kind = .name)
      (arguments : Arguments tokens args) :
      Primary (token :: tokens) (.call token.position token.text args)
  | group {tokens : List Token} {opening closing : Token} {e : Expr}
      (opens : opening.kind = .sign .openParen) (expression : Expression true tokens e)
      (closes : closing.kind = .sign .closeParen) : Primary (opening :: tokens ++ [closing]) e

inductive Arguments : List Token → List Expr → Prop where
  | parens {tokens : List Token} {opening closing : Token} {args : List Expr}
      (opens : opening.kind = .sign .openParen) (listing : Listing (Expression true) tokens args)
      (closes : closing.kind = .sign .closeParen) : Arguments (opening :: tokens ++ [closing]) args

inductive Entry : List Token → EntryKey × Expr → Prop where
  | entry {token colon : Token} {tokens : List Token} {key : EntryKey} {value : Expr}
      (keyed : Key token key) (separates : colon.kind = .sign .colon)
      (expression : Expression false tokens value) : Entry (token :: colon :: tokens) (key, value)

end

/-- The tokens, the place, the name and the value of a declaration. -/
inductive Declaration : List Token → Position → String → Expr → Prop where
  | declare {word name sign : Token} {tokens : List Token} {value : Expr}
      (opens : word.kind = .keyword .variable) (names : name.kind = .name)
      (assigns : sign.kind = .sign .assign) (expression : Expression true tokens value) :
      Declaration (word :: name :: sign :: tokens) name.position name.text value

/-- What stands before the first semicolon of a loop. -/
inductive Start : List Token → LoopStart → Prop where
  | nothing : Start [] .nothing
  | declare {tokens : List Token} {p : Position} {name : String} {value : Expr}
      (declaration : Declaration tokens p name value) : Start tokens (.declare p name value)
  | expr {tokens : List Token} {e : Expr} (expression : Expression true tokens e) :
      Start tokens (.expr e)

/-- An expression or nothing. -/
inductive Optional : List Token → Option Expr → Prop where
  | none : Optional [] none
  | some {tokens : List Token} {e : Expr} (expression : Expression true tokens e) :
      Optional tokens (some e)

mutual

inductive Statement : List Token → Stmt → Prop where
  | declare {tokens : List Token} {p : Position} {name : String} {value : Expr}
      (declaration : Declaration tokens p name value) : Statement tokens (.declare p name value)
  | return {word : Token} {tokens : List Token} {value : Expr}
      (returns : word.kind = .keyword .return) (expression : Expression true tokens value) :
      Statement (word :: tokens) (.return word.position (some value))
  | branch {word opening closing : Token} {inside then_ : List Token} {condition : Expr}
      {yes : List Stmt} (tests : word.kind = .keyword .if) (opens : opening.kind = .sign .openParen)
      (expression : Expression true inside condition) (closes : closing.kind = .sign .closeParen)
      (block : Block then_ yes) :
      Statement (word :: opening :: inside ++ [closing] ++ then_)
        (.branch word.position condition yes none)
  | choice {word opening closing other : Token} {inside then_ else_ : List Token}
      {condition : Expr} {yes no : List Stmt} (tests : word.kind = .keyword .if)
      (opens : opening.kind = .sign .openParen) (expression : Expression true inside condition)
      (closes : closing.kind = .sign .closeParen) (block : Block then_ yes)
      (otherwise : other.kind = .keyword .else) (alternative : Block else_ no) :
      Statement (word :: opening :: inside ++ [closing] ++ then_ ++ [other] ++ else_)
        (.branch word.position condition yes (some no))
  | loop {word opening first second closing : Token} {before test after inside : List Token}
      {start : LoopStart} {condition step : Option Expr} {body : List Stmt}
      (repeats : word.kind = .keyword .for) (opens : opening.kind = .sign .openParen)
      (starting : Start before start) (tested : first.kind = .sign .semicolon)
      (testing : Optional test condition) (stepped : second.kind = .sign .semicolon)
      (stepping : Optional after step) (closes : closing.kind = .sign .closeParen)
      (block : Block inside body) :
      Statement (word :: opening :: before ++ [first] ++ test ++ [second] ++ after ++ [closing] ++
        inside) (.loop word.position start condition step body)
  | block {opening : Token} {tokens : List Token} {body : List Stmt}
      (block : Block (opening :: tokens) body) :
      Statement (opening :: tokens) (.block opening.position body)
  | expr {tokens : List Token} {e : Expr} (expression : Expression true tokens e) :
      Statement tokens (.expr e)

inductive Block : List Token → List Stmt → Prop where
  | braces {opening closing : Token} {tokens : List Token} {body : List Stmt}
      (opens : opening.kind = .sign .openBrace) (statements : Statements tokens body)
      (closes : closing.kind = .sign .closeBrace) : Block (opening :: tokens ++ [closing]) body

/-- The statements of a block; only the last may be a `return` without a value. -/
inductive Statements : List Token → List Stmt → Prop where
  | nil : Statements [] []
  | cons {tokens later : List Token} {st : Stmt} {rest : List Stmt}
      (statement : Statement tokens st) (statements : Statements later rest) :
      Statements (tokens ++ later) (st :: rest)
  | bareReturn {word : Token} (returns : word.kind = .keyword .return) :
      Statements [word] [.return word.position none]

end

/-- A name standing for itself. -/
inductive Name : List Token → String → Prop where
  | name {token : Token} (kind : token.kind = .name) : Name [token] token.text

inductive Function : List Token → Script.Function → Prop where
  | function {word name opening closing : Token} {inside tokens : List Token}
      {params : List String} {body : List Stmt} (declares : word.kind = .keyword .function)
      (names : name.kind = .name) (opens : opening.kind = .sign .openParen)
      (listing : Listing Name inside params) (closes : closing.kind = .sign .closeParen)
      (block : Block tokens body) :
      Function (word :: name :: opening :: inside ++ [closing] ++ tokens)
        ⟨name.text, params, body, name.position⟩

inductive Borrowing : List Token → Import → Prop where
  | plain {word module dot name : Token} (borrows : word.kind = .keyword .import)
      (from_ : module.kind = .name) (points : dot.kind = .sign .dot) (names : name.kind = .name) :
      Borrowing [word, module, dot, name] ⟨module.text, name.text, name.text, name.position⟩
  | renamed {word module dot name as other : Token} (borrows : word.kind = .keyword .import)
      (from_ : module.kind = .name) (points : dot.kind = .sign .dot) (names : name.kind = .name)
      (renames : as.kind = .keyword .as) (named : other.kind = .name) :
      Borrowing [word, module, dot, name, as, other]
        ⟨module.text, name.text, other.text, name.position⟩

end Grammar

/-- What stands at the top of a source text. -/
inductive Item where
  | borrowing (decl : Import)
  | function (f : Function)

namespace Item

def import? : Item → Option Import
  | borrowing decl => some decl
  | function _ => none

def function? : Item → Option Function
  | borrowing _ => none
  | function f => some f

end Item

namespace Grammar

inductive Items : List Token → List Item → Prop where
  | nil : Items [] []
  | borrowing {tokens later : List Token} {decl : Import} {rest : List Item}
      (borrowing : Borrowing tokens decl) (items : Items later rest) :
      Items (tokens ++ later) (.borrowing decl :: rest)
  | function {tokens later : List Token} {f : Script.Function} {rest : List Item}
      (function : Function tokens f) (items : Items later rest) :
      Items (tokens ++ later) (.function f :: rest)

end Grammar

namespace Program

/-- The program with these imports and functions, both in the order in which they stand. -/
def ofItems (items : List Item) : Program where
  functions := ⟨(items.filterMap Item.function?).map fun f => (f.name, f)⟩
  imports := items.filterMap Item.import?

end Program

end Script
