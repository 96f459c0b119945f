/-
# Script.Proofs.Syntax.Parts -- the nodes of a syntax tree

The parts of an expression are the expression and all expressions inside it.  The
parts of a statement are statements; what a part evaluates itself are its operands.
The start of a loop counts as a statement inside the loop, since it is one that runs
and that failures are reported of.

`Function.statements` and `Function.expressions` are all nodes of the body of a
function.
-/
import Script.Syntax.Tree

namespace Script

set_option autoImplicit false

namespace Expr

mutual

/-- The expression and all expressions inside it. -/
def parts : Expr → List Expr
  | .number p x => [.number p x]
  | .string p text => [.string p text]
  | .bool p b => [.bool p b]
  | .null p => [.null p]
  | .typeName p tag => [.typeName p tag]
  | .list p items => .list p items :: itemParts items
  | .dict p entries => .dict p entries :: entryParts entries
  | .name p word => [.name p word]
  | .assign p word value => .assign p word value :: value.parts
  | .binary p op left right => .binary p op left right :: (left.parts ++ right.parts)
  | .unary p op operand => .unary p op operand :: operand.parts
  | .index p target i => .index p target i :: (target.parts ++ i.parts)
  | .setIndex p target i value =>
      .setIndex p target i value :: (target.parts ++ i.parts ++ value.parts)
  | .field p target word => .field p target word :: target.parts
  | .method p target word args => .method p target word args :: (target.parts ++ itemParts args)
  | .call p callee args => .call p callee args :: itemParts args

def itemParts : List Expr → List Expr
  | [] => []
  | e :: rest => e.parts ++ itemParts rest

def entryParts : List (EntryKey × Expr) → List Expr
  | [] => []
  | (_, e) :: rest => e.parts ++ entryParts rest

end

theorem mem_parts_self (e : Expr) : e ∈ e.parts := by
  cases e <;> simp [parts]

/-! ## A property of all nodes -/

/-- All nodes of the expression are such. -/
def All (P : Expr → Prop) (e : Expr) : Prop :=
  ∀ part ∈ e.parts, P part

def AllItems (P : Expr → Prop) (es : List Expr) : Prop :=
  ∀ part ∈ itemParts es, P part

def AllEntries (P : Expr → Prop) (entries : List (EntryKey × Expr)) : Prop :=
  ∀ part ∈ entryParts entries, P part

variable {P : Expr → Prop} {p : Position} {word : String}

theorem All.self {e : Expr} (all : e.All P) : P e :=
  all e e.mem_parts_self

theorem allItems_cons {e : Expr} {rest : List Expr} :
    AllItems P (e :: rest) ↔ e.All P ∧ AllItems P rest :=
  List.forall_mem_append

theorem allEntries_cons {key : EntryKey} {e : Expr} {rest : List (EntryKey × Expr)} :
    AllEntries P ((key, e) :: rest) ↔ e.All P ∧ AllEntries P rest :=
  List.forall_mem_append

theorem all_list {items : List Expr} :
    (Expr.list p items).All P ↔ P (.list p items) ∧ AllItems P items :=
  List.forall_mem_cons

theorem all_dict {entries : List (EntryKey × Expr)} :
    (Expr.dict p entries).All P ↔ P (.dict p entries) ∧ AllEntries P entries :=
  List.forall_mem_cons

theorem all_assign {value : Expr} :
    (Expr.assign p word value).All P ↔ P (.assign p word value) ∧ value.All P :=
  List.forall_mem_cons

theorem all_binary {op : BinaryOp} {left right : Expr} :
    (Expr.binary p op left right).All P ↔
      P (.binary p op left right) ∧ left.All P ∧ right.All P :=
  List.forall_mem_cons.trans (and_congr_right fun _ => List.forall_mem_append)

theorem all_unary {op : UnaryOp} {operand : Expr} :
    (Expr.unary p op operand).All P ↔ P (.unary p op operand) ∧ operand.All P :=
  List.forall_mem_cons

theorem all_index {target i : Expr} :
    (Expr.index p target i).All P ↔ P (.index p target i) ∧ target.All P ∧ i.All P :=
  List.forall_mem_cons.trans (and_congr_right fun _ => List.forall_mem_append)

theorem all_setIndex {target i value : Expr} :
    (Expr.setIndex p target i value).All P ↔
      P (.setIndex p target i value) ∧ (target.All P ∧ i.All P) ∧ value.All P :=
  List.forall_mem_cons.trans (and_congr_right fun _ =>
    List.forall_mem_append.trans (and_congr_left fun _ => List.forall_mem_append))

theorem all_field {target : Expr} :
    (Expr.field p target word).All P ↔ P (.field p target word) ∧ target.All P :=
  List.forall_mem_cons

theorem all_method {target : Expr} {args : List Expr} :
    (Expr.method p target word args).All P ↔
      P (.method p target word args) ∧ target.All P ∧ AllItems P args :=
  List.forall_mem_cons.trans (and_congr_right fun _ => List.forall_mem_append)

theorem all_call {args : List Expr} :
    (Expr.call p word args).All P ↔ P (.call p word args) ∧ AllItems P args :=
  List.forall_mem_cons

end Expr

/-- The start of a loop as a statement. -/
def LoopStart.statement? : LoopStart → Option Stmt
  | .nothing => none
  | .declare p word value => some (.declare p word value)
  | .expr e => some (.expr e)

namespace Stmt

mutual

/-- The statement and all statements inside it. -/
def parts : Stmt → List Stmt
  | .declare p word value => [.declare p word value]
  | .expr e => [.expr e]
  | .return p value => [.return p value]
  | .branch p condition yes none => .branch p condition yes none :: blockParts yes
  | .branch p condition yes (some no) =>
      .branch p condition yes (some no) :: (blockParts yes ++ blockParts no)
  | .loop p start condition step body =>
      .loop p start condition step body :: (start.statement?.toList ++ blockParts body)
  | .block p body => .block p body :: blockParts body

def blockParts : List Stmt → List Stmt
  | [] => []
  | s :: rest => s.parts ++ blockParts rest

end

theorem mem_parts_self (s : Stmt) : s ∈ s.parts := by
  cases s with
  | branch p condition yes no => cases no <;> simp [parts]
  | _ => simp [parts]

/-- The expressions that the statement itself evaluates. -/
def operands : Stmt → List Expr
  | .declare _ _ e | .expr e | .branch _ e _ _ => [e]
  | .return _ value => value.toList
  | .loop _ _ condition step _ => condition.toList ++ step.toList
  | .block _ _ => []

end Stmt

namespace Function

/-- All statements of the body. -/
def statements (f : Function) : List Stmt :=
  Stmt.blockParts f.body

/-- All expressions of the body. -/
def expressions (f : Function) : List Expr :=
  f.statements.flatMap fun s => s.operands.flatMap Expr.parts

/-- Some node of the body stands at `p`. -/
def HasNode (f : Function) (p : Position) : Prop :=
  (∃ s ∈ f.statements, s.position = p) ∨ ∃ e ∈ f.expressions, e.position = p

/-- A call with so many arguments stands at `p` in the body. -/
def HasCall (f : Function) (p : Position) (count : Nat) : Prop :=
  ∃ callee args, Expr.call p callee args ∈ f.expressions ∧ args.length = count

theorem HasCall.hasNode {f : Function} {p : Position} {count : Nat} (call : f.HasCall p count) :
    f.HasNode p := by
  obtain ⟨callee, args, member, -⟩ := call
  exact .inr ⟨_, member, rfl⟩

theorem mem_expressions {f : Function} {s : Stmt} {e part : Expr} (statement : s ∈ f.statements)
    (operand : e ∈ s.operands) (member : part ∈ e.parts) : part ∈ f.expressions := by
  simp only [expressions, List.mem_flatMap]
  exact ⟨s, statement, e, operand, member⟩

end Function

end Script
