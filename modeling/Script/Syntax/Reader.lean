/-
# Script.Syntax.Reader -- reading a tape token by token

A reader looks at one token at a time.  Taking the current token brings up the next,
and it is then that a fault on the tape is noticed: a reader that fails at a token
never learns what stands behind it.
-/
import Script.Tape

namespace Script

set_option autoImplicit false

/-- A computation that takes tokens off a tape. -/
abbrev Reader (α : Type) : Type := StateT Tape (Except Stop) α

namespace Tape

/-- The tape, unless the token it should bring up cannot be read. -/
def settle : Tape → Except Stop Tape
  | .fault cause position => .error (.failed (.ofFault cause position))
  | tape => .ok tape

/-- The current token; behind the last one stands the end of the text. -/
def current : Tape → Token
  | .next token _ => token
  | .endOfInput position | .fault _ position => .endOfInput position

end Tape

namespace Reader

/-- The steps allowed are used up. -/
def exhausted {α : Type} : Reader α :=
  fun _ => .error .exhausted

/-- Fails at a place. -/
def failAt {α : Type} (position : Position) (cause : Fault) : Reader α :=
  fun _ => .error (.failed (.ofFault cause position))

/-- The current token. -/
def current : Reader Token :=
  fun tape => .ok (tape.current, tape)

/-- The kind of the current token. -/
def kind : Reader Token.Kind :=
  fun tape => .ok (tape.current.kind, tape)

/-- Fails at the current token. -/
def fail {α : Type} (cause : Token.Kind → Fault) : Reader α :=
  fun tape =>
    .error (.failed (.ofFault (cause tape.current.kind) tape.current.position))

/-- Takes the current token and brings up the next. -/
def take : Reader Token
  | .next token rest => rest.settle.map fun rest => (token, rest)
  | tape => .ok (tape.current, tape)

/-- Whether the current token is the sign. -/
def sees (sign : Sign) : Reader Bool :=
  fun tape => .ok (tape.current.kind = .sign sign, tape)

/-- Takes a token of the kind, which has no value of its own. -/
def expect (wanted : Token.Kind) : Reader Token := do
  if (← kind) = wanted then take else fail (.unexpectedToken wanted)

/-- Takes a sign. -/
def expectSign (sign : Sign) : Reader Token :=
  expect (.sign sign)

/-- Takes a keyword. -/
def expectWord (word : Keyword) : Reader Token :=
  expect (.keyword word)

/-- Takes a name. -/
def expectName : Reader Token :=
  expect .name

/-- Takes the current token if it is of the kind. -/
def accept (wanted : Token.Kind) : Reader Bool := do
  if (← kind) = wanted then
    let _ ← take
    return true
  else return false

end Reader

end Script
