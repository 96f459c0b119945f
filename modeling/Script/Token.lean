/-
# Script.Token -- the words, signs and literals a source text is made of

A token is a kind, the text it was read from and the place of its first character.
The text of a string token is what stands between its quotes.
-/
import Script.Position
import Script.TypeTag

namespace Script

set_option autoImplicit false

/-- The reserved words that are not names of types. -/
inductive Keyword where
  | function
  | variable
  | return
  | if
  | else
  | for
  | import
  | as
  | true
  | false
  | null
deriving DecidableEq, Repr

namespace Keyword

def all : List Keyword :=
  [function, .variable, .return, .if, .else, .for, .import, as, true, false, null]

def spelling : Keyword → String
  | function => "fun"
  | .variable => "var"
  | .return => "return"
  | .if => "if"
  | .else => "else"
  | .for => "for"
  | .import => "import"
  | as => "as"
  | true => "true"
  | false => "false"
  | null => "null"

/-- The name a token listing gives to the word. -/
def label : Keyword → String
  | function => "Fun"
  | .variable => "Var"
  | .return => "Return"
  | .if => "If"
  | .else => "Else"
  | .for => "For"
  | .import => "Import"
  | as => "As"
  | true => "True"
  | false => "False"
  | null => "Null"

/-- The keyword a word spells. -/
def ofSpelling? (word : String) : Option Keyword :=
  all.find? (·.spelling = word)

theorem ofSpelling?_spelling (k : Keyword) : ofSpelling? k.spelling = some k := by
  cases k <;> decide

end Keyword

/-- Operators and punctuation. -/
inductive Sign where
  | plus
  | minus
  | star
  | slash
  | percent
  | assign
  | equal
  | notEqual
  | greater
  | greaterEqual
  | less
  | lessEqual
  | ampersand
  | pipe
  | bang
  | comma
  | semicolon
  | colon
  | dot
  | openParen
  | closeParen
  | openBracket
  | closeBracket
  | openBrace
  | closeBrace
deriving DecidableEq, Repr

namespace Sign

def spelling : Sign → List Char
  | plus => ['+']
  | minus => ['-']
  | star => ['*']
  | slash => ['/']
  | percent => ['%']
  | assign => ['=']
  | equal => ['=', '=']
  | notEqual => ['!', '=']
  | greater => ['>']
  | greaterEqual => ['>', '=']
  | less => ['<']
  | lessEqual => ['<', '=']
  | ampersand => ['&']
  | pipe => ['|']
  | bang => ['!']
  | comma => [',']
  | semicolon => [';']
  | colon => [':']
  | dot => ['.']
  | openParen => ['(']
  | closeParen => [')']
  | openBracket => ['[']
  | closeBracket => [']']
  | openBrace => ['\x7b']
  | closeBrace => ['\x7d']

/-- The name a token listing gives to the sign. -/
def label : Sign → String
  | plus => "Plus"
  | minus => "Minus"
  | star => "Star"
  | slash => "Slash"
  | percent => "Percent"
  | assign => "Assign"
  | equal => "EqEq"
  | notEqual => "NotEq"
  | greater => "Gt"
  | greaterEqual => "GtEq"
  | less => "Lt"
  | lessEqual => "LtEq"
  | ampersand => "Amp"
  | pipe => "Pipe"
  | bang => "Bang"
  | comma => "Comma"
  | semicolon => "Semi"
  | colon => "Colon"
  | dot => "Dot"
  | openParen => "LParen"
  | closeParen => "RParen"
  | openBracket => "LBracket"
  | closeBracket => "RBracket"
  | openBrace => "LBrace"
  | closeBrace => "RBrace"

/-- The sign of two characters. -/
def ofPair? (c d : Char) : Option Sign :=
  match c, d with
  | '=', '=' => some equal
  | '!', '=' => some notEqual
  | '>', '=' => some greaterEqual
  | '<', '=' => some lessEqual
  | _, _ => none

/-- The sign of one character. -/
def ofChar? : Char → Option Sign
  | '+' => some plus
  | '-' => some minus
  | '*' => some star
  | '/' => some slash
  | '%' => some percent
  | '=' => some assign
  | '>' => some greater
  | '<' => some less
  | '&' => some ampersand
  | '|' => some pipe
  | '!' => some bang
  | ',' => some comma
  | ';' => some semicolon
  | ':' => some colon
  | '.' => some dot
  | '(' => some openParen
  | ')' => some closeParen
  | '[' => some openBracket
  | ']' => some closeBracket
  | '\x7b' => some openBrace
  | '\x7d' => some closeBrace
  | _ => none

end Sign

namespace Token

/-- What a token is, with the value of a number and the tag of a type name. -/
inductive Kind where
  | number (value : Float)
  | string
  | name
  | typeName (tag : TypeTag)
  | keyword (word : Keyword)
  | sign (sign : Sign)
  | endOfInput
deriving DecidableEq

namespace Kind

/-- How a message speaks of a token of this kind. -/
def description : Kind → String
  | number _ => "number"
  | string => "string"
  | name => "identifier"
  | typeName _ => "type name"
  | keyword word => "'" ++ word.spelling ++ "'"
  | sign s => "'" ++ String.ofList s.spelling ++ "'"
  | endOfInput => "end of input"

end Kind

end Token

structure Token where
  kind : Token.Kind
  text : String
  position : Position
deriving DecidableEq

end Script
