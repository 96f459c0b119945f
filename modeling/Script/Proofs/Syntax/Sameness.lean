/-
# Script.Proofs.Syntax.Sameness -- whether two trees are the same

The trees of the language hold lists of trees, so their equality is decided by functions that go
over the two trees together, one for each kind of tree (`Expr.same_iff`, `Stmt.same_iff`).  Places
count: the same program text elsewhere is another tree.
-/
import Script.FunctionTable

namespace Script

set_option autoImplicit false

namespace Expr

mutual

/-- Whether two expressions are the same. -/
def same : Expr → Expr → Bool
  | .number p x, .number q y => decide (p = q) && decide (x = y)
  | .string p text, .string q text' => decide (p = q) && decide (text = text')
  | .bool p b, .bool q b' => decide (p = q) && decide (b = b')
  | .null p, .null q => decide (p = q)
  | .typeName p tag, .typeName q tag' => decide (p = q) && decide (tag = tag')
  | .list p items, .list q items' => decide (p = q) && sameItems items items'
  | .dict p entries, .dict q entries' => decide (p = q) && sameEntries entries entries'
  | .name p word, .name q word' => decide (p = q) && decide (word = word')
  | .assign p word e, .assign q word' e' =>
      decide (p = q) && decide (word = word') && e.same e'
  | .binary p op left right, .binary q op' left' right' =>
      decide (p = q) && decide (op = op') && left.same left' && right.same right'
  | .unary p op e, .unary q op' e' => decide (p = q) && decide (op = op') && e.same e'
  | .index p target i, .index q target' i' =>
      decide (p = q) && target.same target' && i.same i'
  | .setIndex p target i e, .setIndex q target' i' e' =>
      decide (p = q) && target.same target' && i.same i' && e.same e'
  | .field p target word, .field q target' word' =>
      decide (p = q) && target.same target' && decide (word = word')
  | .method p target word args, .method q target' word' args' =>
      decide (p = q) && target.same target' && decide (word = word') && sameItems args args'
  | .call p callee args, .call q callee' args' =>
      decide (p = q) && decide (callee = callee') && sameItems args args'
  | _, _ => false

def sameItems : List Expr → List Expr → Bool
  | [], [] => true
  | e :: rest, e' :: rest' => e.same e' && sameItems rest rest'
  | _, _ => false

def sameEntries : List (EntryKey × Expr) → List (EntryKey × Expr) → Bool
  | [], [] => true
  | (key, e) :: rest, (key', e') :: rest' =>
      decide (key = key') && e.same e' && sameEntries rest rest'
  | _, _ => false

end

mutual

theorem same_iff : ∀ {e e' : Expr}, e.same e' = true ↔ e = e'
  | .number .., e' | .string .., e' | .bool .., e' | .null _, e' | .typeName .., e'
  | .name .., e' => by
      cases e' <;> simp [same]
  | .list p items, e' => by
      cases e' <;> simp [same, sameItems_iff]
  | .dict p entries, e' => by
      cases e' <;> simp [same, sameEntries_iff]
  | .assign p word e, e' => by
      cases e' <;> simp [same, same_iff, and_assoc]
  | .binary p op left right, e' => by
      cases e' <;> simp [same, same_iff, and_assoc]
  | .unary p op e, e' => by
      cases e' <;> simp [same, same_iff, and_assoc]
  | .index p target i, e' => by
      cases e' <;> simp [same, same_iff, and_assoc]
  | .setIndex p target i e, e' => by
      cases e' <;> simp [same, same_iff, and_assoc]
  | .field p target word, e' => by
      cases e' <;> simp [same, same_iff, and_assoc]
  | .method p target word args, e' => by
      cases e' <;> simp [same, same_iff, sameItems_iff, and_assoc]
  | .call p callee args, e' => by
      cases e' <;> simp [same, sameItems_iff, and_assoc]

theorem sameItems_iff : ∀ {es es' : List Expr}, sameItems es es' = true ↔ es = es'
  | [], es' => by
      cases es' <;> simp [sameItems]
  | e :: rest, es' => by
      cases es' <;> simp [sameItems, same_iff, sameItems_iff]

theorem sameEntries_iff : ∀ {entries entries' : List (EntryKey × Expr)},
    sameEntries entries entries' = true ↔ entries = entries'
  | [], entries' => by
      cases entries' <;> simp [sameEntries]
  | (key, e) :: rest, entries' => by
      rcases entries' with - | ⟨⟨key', e'⟩, rest'⟩ <;>
        simp [sameEntries, same_iff, sameEntries_iff]

end

instance : DecidableEq Expr := fun _ _ => decidable_of_iff _ same_iff

end Expr

deriving instance DecidableEq for LoopStart

namespace Stmt

mutual

/-- Whether two statements are the same. -/
def same : Stmt → Stmt → Bool
  | .declare p word e, .declare q word' e' =>
      decide (p = q) && decide (word = word') && decide (e = e')
  | .expr e, .expr e' => decide (e = e')
  | .return p e, .return q e' => decide (p = q) && decide (e = e')
  | .branch p e yes no, .branch q e' yes' no' =>
      decide (p = q) && decide (e = e') && sameBlock yes yes' &&
        match no, no' with
        | none, none => true
        | some no, some no' => sameBlock no no'
        | _, _ => false
  | .loop p start condition step body, .loop q start' condition' step' body' =>
      decide (p = q) && decide (start = start') && decide (condition = condition') &&
        decide (step = step') && sameBlock body body'
  | .block p body, .block q body' => decide (p = q) && sameBlock body body'
  | _, _ => false

def sameBlock : List Stmt → List Stmt → Bool
  | [], [] => true
  | st :: rest, st' :: rest' => st.same st' && sameBlock rest rest'
  | _, _ => false

end

mutual

theorem same_iff : ∀ {st st' : Stmt}, st.same st' = true ↔ st = st'
  | .declare .., st' | .expr _, st' | .return .., st' => by
      cases st' <;> simp [same, and_assoc]
  | .branch p e yes none, st' => by
      rcases st' with - | - | - | ⟨q, e', yes', - | no'⟩ | - | - <;>
        simp [same, sameBlock_iff, and_assoc]
  | .branch p e yes (some no), st' => by
      rcases st' with - | - | - | ⟨q, e', yes', - | no'⟩ | - | - <;>
        simp [same, sameBlock_iff, and_assoc]
  | .loop p start condition step body, st' => by
      cases st' <;> simp [same, sameBlock_iff, and_assoc]
  | .block p body, st' => by
      cases st' <;> simp [same, sameBlock_iff]

theorem sameBlock_iff : ∀ {body body' : List Stmt}, sameBlock body body' = true ↔ body = body'
  | [], body' => by
      cases body' <;> simp [sameBlock]
  | st :: rest, body' => by
      cases body' <;> simp [sameBlock, same_iff, sameBlock_iff]

end

instance : DecidableEq Stmt := fun _ _ => decidable_of_iff _ same_iff

end Stmt

deriving instance DecidableEq for Function

end Script
