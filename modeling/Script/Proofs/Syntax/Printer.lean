/-
# Script.Proofs.Syntax.Printer -- programs written down

Trees are written as tokens and tokens as text with a blank between any two.  A node
gives its place to the token that it takes it from; the other tokens stand nowhere in
particular.  Parentheses stand around the expression of every statement, and inside it
where a node binds too loosely (`Expr.level`) for what is around it or where `>` would
close a dictionary.

A number is written with any literal text that reads as the number; `spell` chooses one
for each place and number.
-/
import Script.Proofs.Syntax.Grammar
import Script.Proofs.Tape.Spelling

namespace Script

set_option autoImplicit false

namespace Token

def ofSign (sign : Sign) (position : Position) : Token :=
  ⟨.sign sign, String.ofList sign.spelling, position⟩

def ofWord (word : Keyword) (position : Position) : Token :=
  ⟨.keyword word, word.spelling, position⟩

def ofName (name : String) (position : Position) : Token :=
  ⟨.name, name, position⟩

/-- A sign whose place no node takes. -/
def mark (sign : Sign) : Token :=
  ofSign sign .start

/-- Tokens between parentheses. -/
def grouped (tokens : List Token) : List Token :=
  mark .openParen :: tokens ++ [mark .closeParen]

/-- Tokens between braces, the opening one at a place. -/
def braced (position : Position) (tokens : List Token) : List Token :=
  ofSign .openBrace position :: tokens ++ [mark .closeBrace]

end Token

open Token

/-- The key of an entry as a token. -/
def EntryKey.token : EntryKey → Token
  | .literal text => ⟨.string, text, .start⟩
  | .name text => ofName text .start

namespace Expr

/-- How tightly the outermost form of an expression holds it together. -/
def level : Expr → Nat
  | .assign _ _ _ | .setIndex _ _ _ _ => 0
  | .binary _ op _ _ => op.level
  | .unary _ _ _ => 7
  | _ => 8

/-- A comparison with `>`. -/
def isGreater : Expr → Bool
  | .binary _ .greater _ _ => true
  | _ => false

/-- The expression needs no parentheses where this level is asked for and `>` is an operator or
not. -/
def fits (e : Expr) (level : Nat) (greater : Bool) : Bool :=
  level ≤ e.level && (greater || !e.isGreater)

/-- Tokens of an expression, in parentheses if it does not fit; `plain` writes it without. -/
def wrap (e : Expr) (level : Nat) (greater : Bool) (plain : Bool → List Token) : List Token :=
  if e.fits level greater then plain greater else grouped (plain true)

variable (spell : Position → Float → String)

mutual

/-- The tokens of an expression without parentheses around it. -/
def plain : Expr → Bool → List Token
  | .number p x, _ => [⟨.number x, spell p x, p⟩]
  | .string p text, _ => [⟨.string, text, p⟩]
  | .bool p true, _ => [ofWord .true p]
  | .bool p false, _ => [ofWord .false p]
  | .null p, _ => [ofWord .null p]
  | .typeName p tag, _ => [⟨.typeName tag, tag.name, p⟩]
  | .list p items, _ => ofSign .openBracket p :: itemTokens items ++ [mark .closeBracket]
  | .dict p entries, _ => ofSign .less p :: entryTokens entries ++ [mark .greater]
  | .name p word, _ => [ofName word p]
  | .assign p word value, greater =>
      [ofName word p] ++ [mark .assign] ++ value.wrap 0 greater (plain value)
  | .binary p op left right, greater =>
      left.wrap op.level greater (plain left) ++ [ofSign op.sign p] ++
        right.wrap (op.level + 1) greater (plain right)
  | .unary p op operand, greater => ofSign op.sign p :: operand.wrap 7 greater (plain operand)
  | .index p target i, greater =>
      target.wrap 8 greater (plain target) ++ [ofSign .openBracket p] ++ plain i true ++
        [mark .closeBracket]
  | .setIndex p target i value, greater =>
      target.wrap 8 greater (plain target) ++ [ofSign .openBracket p] ++ plain i true ++
        [mark .closeBracket] ++ [mark .assign] ++ value.wrap 0 greater (plain value)
  | .field p target word, greater =>
      target.wrap 8 greater (plain target) ++ [mark .dot] ++ [ofName word p]
  | .method p target word args, greater =>
      target.wrap 8 greater (plain target) ++ [mark .dot] ++ [ofName word p] ++
        grouped (itemTokens args)
  | .call p callee args, _ => ofName callee p :: grouped (itemTokens args)

/-- Expressions with commas between them. -/
def itemTokens : List Expr → List Token
  | [] => []
  | e :: rest => plain e true ++ moreTokens rest

/-- Expressions with a comma before each. -/
def moreTokens : List Expr → List Token
  | [] => []
  | e :: rest => mark .comma :: plain e true ++ moreTokens rest

def entryTokens : List (EntryKey × Expr) → List Token
  | [] => []
  | (key, e) :: rest =>
      key.token :: mark .colon :: e.wrap 0 false (plain e) ++ moreEntryTokens rest

def moreEntryTokens : List (EntryKey × Expr) → List Token
  | [] => []
  | (key, e) :: rest =>
      mark .comma :: key.token :: mark .colon :: e.wrap 0 false (plain e) ++ moreEntryTokens rest

end

/-- The tokens of an expression where this level is asked for. -/
def tokens (e : Expr) (level : Nat) (greater : Bool) : List Token :=
  e.wrap level greater (plain spell e)

/-- What stands between the semicolons of a loop. -/
def optionTokens : Option Expr → List Token
  | none => []
  | some e => e.plain spell true

end Expr

variable (spell : Position → Float → String)

/-- The tokens of a declaration. -/
def declarationTokens (p : Position) (name : String) (value : Expr) : List Token :=
  ofWord .variable .start :: ofName name p :: mark .assign :: grouped (value.plain spell true)

namespace LoopStart

def tokens : LoopStart → List Token
  | .nothing => []
  | .declare p name value => declarationTokens spell p name value
  | .expr e => grouped (e.plain spell true)

end LoopStart

namespace Stmt

mutual

def tokens : Stmt → List Token
  | .declare p name value => declarationTokens spell p name value
  | .expr e => grouped (e.plain spell true)
  | .return p none => [ofWord .return p]
  | .return p (some e) => ofWord .return p :: grouped (e.plain spell true)
  | .branch p condition yes none =>
      ofWord .if p :: grouped (condition.plain spell true) ++ braced .start (blockTokens yes)
  | .branch p condition yes (some no) =>
      ofWord .if p :: grouped (condition.plain spell true) ++ braced .start (blockTokens yes) ++
        [ofWord .else .start] ++ braced .start (blockTokens no)
  | .loop p start condition step body =>
      ofWord .for p :: mark .openParen :: start.tokens spell ++ [mark .semicolon] ++
        Expr.optionTokens spell condition ++ [mark .semicolon] ++ Expr.optionTokens spell step ++
          [mark .closeParen] ++ braced .start (blockTokens body)
  | .block p body => braced p (blockTokens body)

def blockTokens : List Stmt → List Token
  | [] => []
  | s :: rest => tokens s ++ blockTokens rest

end

end Stmt

/-- Names with a comma before each. -/
def moreNameTokens : List String → List Token
  | [] => []
  | name :: rest => mark .comma :: ofName name .start :: moreNameTokens rest

/-- Names with commas between them. -/
def nameTokens : List String → List Token
  | [] => []
  | name :: rest => ofName name .start :: moreNameTokens rest

namespace Function

def tokens (f : Function) : List Token :=
  ofWord .function .start :: ofName f.name f.position :: grouped (nameTokens f.params) ++
    braced .start (Stmt.blockTokens spell f.body)

end Function

namespace Import

def tokens (decl : Import) : List Token :=
  [ofWord .import .start, ofName decl.module .start, mark .dot, ofName decl.name decl.position] ++
    if decl.newName = decl.name then [] else [ofWord .as .start, ofName decl.newName .start]

end Import

namespace Item

def tokens : Item → List Token
  | .borrowing decl => decl.tokens
  | .function f => f.tokens spell

/-- The text of the items, all tokens separated by a blank. -/
def text (items : List Item) : String :=
  String.ofList (List.intercalate [' '] ((items.flatMap (tokens spell)).map source))

end Item

end Script
