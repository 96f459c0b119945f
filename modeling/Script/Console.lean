/-
# Script.Console -- what a program reads and writes

Input is either cut into lines in advance or read from bytes line by line.  Output
is kept as one text, each line closed by a line feed.
-/
import Script.Text.Lines

namespace Script

set_option autoImplicit false

/-- The input still unread. -/
inductive Input where
  | lines (rest : List String)
  | bytes (rest : List UInt8)

namespace Input

/-- The input that a prepared text is. -/
def ofText (text : String) : Input :=
  .lines ((Text.lines text.toList).map String.ofList)

/-- The next line, absent at the end, and the input after it. -/
def next : Input → Option String × Input
  | .lines [] => (none, .lines [])
  | .lines (line :: rest) => (some line, .lines rest)
  | .bytes [] => (none, .bytes [])
  | .bytes unread =>
      let (line, rest) := Text.takeLine unread
      (some line, .bytes rest)

end Input

structure Console where
  input : Input
  output : String

namespace Console

def ofInput (input : Input) : Console :=
  ⟨input, ""⟩

def writeLine (c : Console) (line : String) : Console :=
  { c with output := c.output ++ line ++ "\n" }

/-- The next line of input, absent at the end. -/
def readLine (c : Console) : Option String × Console :=
  let (line, input) := c.input.next
  (line, { c with input })

end Console

end Script
