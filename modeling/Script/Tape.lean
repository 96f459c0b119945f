/-
# Script.Tape -- the tokens still to come, and what ends them

A source text is read from left to right.  Blanks and comments separate tokens and
leave no trace; every other piece of text is the longest one its first character
allows (`piece`).  What is read is a `Tape`: tokens in order, closed either by the
end of the text or by the first place where no token can be read.

A fault at the end of a tape counts only when a reader gets that far.  `Tape.tokens`
reads it all; a reader that stops earlier never sees it.
-/
import Script.Failure
import Script.Number.Reading
import Script.Text.Letter

namespace Script

set_option autoImplicit false

namespace Tape

/-- A blank separates tokens: space, tab, carriage return, line feed, form feed. -/
def isBlank (c : Char) : Bool :=
  c = ' ' || c = '\t' || c = '\r' || c = '\n' || c = '\x0c'

/-- A character of a number after its first digit. -/
def isNumberPart (c : Char) : Bool :=
  c.isDigit || c = '.'

/-- What a piece of text is. -/
inductive Form where
  /-- A blank, or a comment. -/
  | gap
  | token (kind : Token.Kind) (text : String)
  | fault (cause : Fault)
deriving DecidableEq

/-- What a piece of text is, and how many characters it has after its first. -/
structure Piece where
  form : Form
  extra : Nat
deriving DecidableEq

/-- The kind of a word: a reserved one or a name. -/
def wordKind (word : String) : Token.Kind :=
  match Keyword.ofSpelling? word with
  | some keyword => .keyword keyword
  | none =>
      match TypeTag.ofName? word with
      | some tag => .typeName tag
      | none => .name

/-- A run of digits and points. -/
def numberPiece (c : Char) (cs : List Char) : Piece :=
  let run := cs.takeWhile isNumberPart
  let text := String.ofList (c :: run)
  match Number.ofDecimal? (c :: run) with
  | some value => ⟨.token (.number value) text, run.length⟩
  | none => ⟨.fault (.invalidNumber text), run.length⟩

/-- A word: a letter, then letters and digits.  It is a name, whatever it spells, when the first
byte of the character behind it seems to carry it on; no token begins with such a character, so
this changes only how a word right before a fault is named. -/
def wordPiece (c : Char) (cs : List Char) : Piece :=
  let run := cs.takeWhile Text.isNamePart
  let word := String.ofList (c :: run)
  let next := (cs.drop run.length).head?
  ⟨.token (if next.any Text.looksLikeNamePart then .name else wordKind word) word, run.length⟩

/-- A string: everything up to the next quote. -/
def stringPiece (cs : List Char) : Piece :=
  let inside := cs.takeWhile (· ≠ '"')
  if inside.length = cs.length then ⟨.fault .unterminatedString, cs.length⟩
  else ⟨.token .string (String.ofList inside), inside.length + 1⟩

/-- An operator or a punctuation mark, the longer one where two fit. -/
def signPiece (c : Char) (cs : List Char) : Piece :=
  match cs.head?.bind (Sign.ofPair? c) with
  | some sign => ⟨.token (.sign sign) (String.ofList sign.spelling), 1⟩
  | none =>
      match Sign.ofChar? c with
      | some sign => ⟨.token (.sign sign) (String.ofList sign.spelling), 0⟩
      | none => ⟨.fault (.unknownChar c), 0⟩

/-- The piece at the head of a text that begins with `c` and goes on with `cs`. -/
def piece (c : Char) (cs : List Char) : Piece :=
  if isBlank c then ⟨.gap, 0⟩
  else if c = '/' && cs.head? = some '/' then ⟨.gap, (cs.takeWhile (· ≠ '\n')).length⟩
  else if c.isDigit then numberPiece c cs
  else if Text.isLetter c then wordPiece c cs
  else if c = '"' then stringPiece cs
  else signPiece c cs

end Tape

/-- Tokens in order, then the end of the text or the fault that stops the reading. -/
inductive Tape where
  | endOfInput (position : Position)
  | fault (cause : Fault) (position : Position)
  | next (token : Token) (rest : Tape)
deriving DecidableEq

namespace Tape

/-- The tape of a text whose first character stands at `position`. -/
def ofChars (position : Position) : List Char → Tape
  | [] => .endOfInput position
  | c :: cs =>
      let p := piece c cs
      let after := (position.step c).after (cs.take p.extra)
      match p.form with
      | .gap => ofChars after (cs.drop p.extra)
      | .token kind text => .next ⟨kind, text, position⟩ (ofChars after (cs.drop p.extra))
      | .fault cause => .fault cause position
termination_by cs => cs.length
decreasing_by all_goals simp only [List.length_drop, List.length_cons]; omega

/-- The tape of a source text. -/
def ofText (source : String) : Tape :=
  ofChars .start source.toList

/-- The number of tokens on the tape. -/
def length : Tape → Nat
  | .next _ rest => rest.length + 1
  | _ => 0

/-- All tokens, and what ends them: the place of the end, or the first failure. -/
def tokens : Tape → List Token × Except Failure Position
  | .endOfInput position => ([], .ok position)
  | .fault cause position => ([], .error (.ofFault cause position))
  | .next token rest => (token :: rest.tokens.1, rest.tokens.2)

end Tape

/-- The token that stands for the end of a text. -/
def Token.endOfInput (position : Position) : Token :=
  ⟨.endOfInput, "", position⟩

/-- The next token and the tape behind it.  At the end of the text it is the one that stands for
the end, however often it is asked for. -/
def Tape.nextToken : Tape → Except Failure (Token × Tape)
  | .endOfInput position => .ok (.endOfInput position, .endOfInput position)
  | .fault cause position => .error (.ofFault cause position)
  | .next token rest => .ok (token, rest)

/-- The tokens that so many requests for the next one bring up. -/
def Tape.nextTokens : Nat → Tape → Except Failure (List Token)
  | 0, _ => .ok []
  | count + 1, tape => do
      let (token, rest) ← tape.nextToken
      return token :: (← rest.nextTokens count)

/-- All tokens of a source text, closed by the one for its end. -/
def tokenize (source : String) : Except Failure (List Token) :=
  let (tokens, ending) := (Tape.ofText source).tokens
  ending.map fun position => tokens ++ [.endOfInput position]

end Script
