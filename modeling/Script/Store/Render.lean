/-
# Script.Store.Render -- the text of a value

A list is rendered as its items between brackets, a dictionary as its entries
between braces, everything else as the word or the digits that stand for it.  No
quotes are put around strings.

A chain of containers, each inside the one before, that is longer than the store is
large has met some container twice, and so would go on for ever.
-/
import Script.Attempt
import Script.Store

namespace Script.Store

set_option autoImplicit false

/-- The text of a value nested at most `depth` containers deep; the list at `locked` may not be
visited. -/
def renderWithin (s : Store) (locked : Option Nat) (depth : Nat) (v : Value) : Attempt String :=
  match v with
  | .null => .ok "null"
  | .bool b => .ok (if b then "true" else "false")
  | .number x => .ok (Number.text x)
  | .string text => .ok text
  | .list a =>
      match depth with
      | 0 => .error .endless
      | depth + 1 =>
          if locked = some a then .error .aborted
          else do
            let items ← (s.items a).toList.mapM (s.renderWithin locked depth)
            .ok ("[" ++ ", ".intercalate items ++ "]")
  | .dict a =>
      match depth with
      | 0 => .error .endless
      | depth + 1 => do
          let entries ← (s.entries a).toList.mapM fun entry => do
            let text ← s.renderWithin locked depth entry.2
            .ok (entry.1 ++ "=" ++ text)
          .ok ("\x7b" ++ ", ".intercalate entries ++ "\x7d")
  | .function name => .ok ("<function " ++ name ++ ">")
  | .typeName tag => .ok tag.name

/-- The text of a value. -/
def render (s : Store) (v : Value) : Attempt String :=
  s.renderWithin none (s.size + 1) v

/-- The text of a value, while the list at `locked` is being written. -/
def renderLocked (s : Store) (locked : Nat) (v : Value) : Attempt String :=
  s.renderWithin (some locked) (s.size + 1) v

end Script.Store
