/-
# Script.Proofs.Relocate.Trees -- the same text at other places

Everything read from a source text carries places, and nothing is read off them: `relocate`
puts another place for each.  Two trees differ only in their places when they become equal
under `unplaced`, which puts the first place for all.
-/
import Script.FunctionTable
import Script.Tape

namespace Script

set_option autoImplicit false

variable (move : Position → Position)

namespace Expr

mutual

def relocate : Expr → Expr
  | .number p x => .number (move p) x
  | .string p text => .string (move p) text
  | .bool p b => .bool (move p) b
  | .null p => .null (move p)
  | .typeName p tag => .typeName (move p) tag
  | .list p items => .list (move p) (relocateItems items)
  | .dict p entries => .dict (move p) (relocateEntries entries)
  | .name p word => .name (move p) word
  | .assign p word value => .assign (move p) word (relocate value)
  | .binary p op left right => .binary (move p) op (relocate left) (relocate right)
  | .unary p op operand => .unary (move p) op (relocate operand)
  | .index p target i => .index (move p) (relocate target) (relocate i)
  | .setIndex p target i value =>
      .setIndex (move p) (relocate target) (relocate i) (relocate value)
  | .field p target word => .field (move p) (relocate target) word
  | .method p target word args => .method (move p) (relocate target) word (relocateItems args)
  | .call p callee args => .call (move p) callee (relocateItems args)

def relocateItems : List Expr → List Expr
  | [] => []
  | e :: rest => relocate e :: relocateItems rest

def relocateEntries : List (EntryKey × Expr) → List (EntryKey × Expr)
  | [] => []
  | (key, e) :: rest => (key, relocate e) :: relocateEntries rest

end

end Expr

namespace LoopStart

def relocate : LoopStart → LoopStart
  | .nothing => .nothing
  | .declare p word value => .declare (move p) word (value.relocate move)
  | .expr e => .expr (e.relocate move)

end LoopStart

namespace Stmt

mutual

def relocate : Stmt → Stmt
  | .declare p word value => .declare (move p) word (value.relocate move)
  | .expr e => .expr (e.relocate move)
  | .return p value => .return (move p) (value.map (·.relocate move))
  | .branch p condition yes none =>
      .branch (move p) (condition.relocate move) (relocateBlock yes) none
  | .branch p condition yes (some no) =>
      .branch (move p) (condition.relocate move) (relocateBlock yes) (some (relocateBlock no))
  | .loop p start condition step body =>
      .loop (move p) (start.relocate move) (condition.map (·.relocate move))
        (step.map (·.relocate move)) (relocateBlock body)
  | .block p body => .block (move p) (relocateBlock body)

def relocateBlock : List Stmt → List Stmt
  | [] => []
  | s :: rest => relocate s :: relocateBlock rest

end

end Stmt

namespace Function

def relocate (f : Function) : Function where
  name := f.name
  params := f.params
  body := Stmt.relocateBlock move f.body
  position := move f.position

theorem name_relocate (f : Function) : (f.relocate move).name = f.name := rfl

end Function

namespace FunctionTable

def relocate (t : FunctionTable) : FunctionTable :=
  ⟨t.entries.map fun entry => (entry.1, entry.2.relocate move)⟩

@[simp] theorem contains_relocate (t : FunctionTable) (name : String) :
    (t.relocate move).contains name = t.contains name := by
  obtain ⟨entries⟩ := t
  simp only [contains, find?, relocate]
  induction entries with
  | nil => rfl
  | cons entry entries ih =>
      obtain ⟨other, f⟩ := entry
      rw [List.map_cons, List.lookup_cons, List.lookup_cons]
      cases name == other with
      | true => rfl
      | false => exact ih

theorem relocate_add (t : FunctionTable) (name : String) (f : Function) :
    (t.add name f).relocate move = (t.relocate move).add name (f.relocate move) := by
  simp [add, relocate]

end FunctionTable

namespace Import

def relocate (decl : Import) : Import where
  module := decl.module
  name := decl.name
  newName := decl.newName
  position := move decl.position

@[simp] theorem agrees_relocate (decl : Import) (seen : List Import) :
    (seen.map (relocate move)).any (decl.relocate move).agrees = seen.any decl.agrees := by
  induction seen with
  | nil => rfl
  | cons other seen ih =>
      simp only [List.map_cons, List.any_cons, ih]
      rfl

end Import

namespace Program

def relocate (p : Program) : Program where
  functions := p.functions.relocate move
  imports := p.imports.map (Import.relocate move)

/-- The program with all its places forgotten. -/
def unplaced (p : Program) : Program :=
  p.relocate fun _ => .start

end Program

namespace Failure

def relocate (failure : Failure) : Failure where
  fault := failure.fault
  position := move failure.position
  trace := failure.trace.map fun frame => ⟨frame.name, move frame.position⟩

end Failure

namespace Stop

def relocate : Stop → Stop
  | .failed failure => .failed (failure.relocate move)
  | .exhausted => .exhausted

end Stop

namespace Token

def relocate (token : Token) : Token where
  kind := token.kind
  text := token.text
  position := move token.position

end Token

namespace Tape

def relocate : Tape → Tape
  | .endOfInput position => .endOfInput (move position)
  | .fault cause position => .fault cause (move position)
  | .next token rest => .next (token.relocate move) rest.relocate

@[simp] theorem length_relocate (tape : Tape) : (tape.relocate move).length = tape.length := by
  induction tape with
  | next token rest ih => simp [relocate, length, ih]
  | _ => rfl

/-- The tape with all its places forgotten. -/
def unplaced (tape : Tape) : Tape :=
  tape.relocate fun _ => .start

theorem unplaced_next {first second : Token} {tape rest : Tape}
    (kind : first.kind = second.kind) (text : first.text = second.text)
    (same : tape.unplaced = rest.unplaced) :
    (next first tape).unplaced = (next second rest).unplaced := by
  simp only [unplaced, relocate, Token.relocate, kind, text] at same ⊢
  rw [same]

end Tape

end Script
