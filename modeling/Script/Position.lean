/-
# Script.Position -- lines and columns of a source text

A position counts from line 1, column 1.  A line feed starts the next line; every
other character, a carriage return or a tab included, is one column.
-/
namespace Script

set_option autoImplicit false

/-- The place of a character in a source text, both numbers counted from one. -/
structure Position where
  line : Nat
  column : Nat
deriving DecidableEq, Repr, Inhabited

namespace Position

/-- The place of the first character. -/
def start : Position := ⟨1, 1⟩

/-- The place after a character `c` that stands at `p`. -/
def step (p : Position) (c : Char) : Position :=
  if c = '\n' then ⟨p.line + 1, 1⟩ else ⟨p.line, p.column + 1⟩

/-- The place after the characters `cs` whose first stands at `p`. -/
def after (p : Position) (cs : List Char) : Position :=
  cs.foldl step p

theorem after_nil (p : Position) : p.after [] = p := rfl

theorem after_cons (p : Position) (c : Char) (cs : List Char) :
    p.after (c :: cs) = (p.step c).after cs := rfl

theorem after_append (p : Position) (cs ds : List Char) :
    p.after (cs ++ ds) = (p.after cs).after ds := by
  simp [after]

/-- Line and column joined by a colon. -/
def text (p : Position) : String :=
  toString p.line ++ ":" ++ toString p.column

end Position

end Script
