/-
# Script.Proofs.Eval.Sites -- where code may fail, and where it may call

Two things tie a running program to its text: the places it reports failures at, and
the places it makes calls from.  `Sites` says which of them a piece of code has, and
`Covers` that an expression or a statement keeps to them.  `Function.sites` are the
sites of the body of a function, which keeps to them (`Function.sites_covers`).
-/
import Script.Proofs.Syntax.Parts

namespace Script

set_option autoImplicit false

/-- Where a piece of code may report a failure, and where it may call a function with so many
arguments.  A call with two may be one of `map`, which calls its callback with one. -/
structure Sites where
  fails : Position → Prop
  calls : Position → Nat → Prop
  fails_of_calls : ∀ {p : Position} {count : Nat}, calls p count → fails p
  callback : ∀ {p : Position}, calls p 2 → calls p 1

namespace Sites

/-- Everywhere. -/
def anywhere : Sites :=
  ⟨fun _ => True, fun _ _ => True, fun _ => trivial, fun _ => trivial⟩

/-- The sites of one node. -/
def CoversNode (s : Sites) (e : Expr) : Prop :=
  s.fails e.position ∧ ∀ p callee args, e = .call p callee args → s.calls p args.length

def Covers (s : Sites) (e : Expr) : Prop :=
  ∀ part ∈ e.parts, s.CoversNode part

def CoversItems (s : Sites) (es : List Expr) : Prop :=
  ∀ part ∈ Expr.itemParts es, s.CoversNode part

def CoversEntries (s : Sites) (entries : List (EntryKey × Expr)) : Prop :=
  ∀ part ∈ Expr.entryParts entries, s.CoversNode part

/-- The sites of one statement, without those inside it. -/
def CoversStep (s : Sites) (st : Stmt) : Prop :=
  s.fails st.position ∧ ∀ e ∈ st.operands, s.Covers e

def CoversStmt (s : Sites) (st : Stmt) : Prop :=
  ∀ part ∈ st.parts, s.CoversStep part

def CoversBlock (s : Sites) (body : List Stmt) : Prop :=
  ∀ part ∈ Stmt.blockParts body, s.CoversStep part

theorem anywhere_covers (e : Expr) : anywhere.Covers e :=
  fun _ _ => ⟨trivial, fun _ _ _ _ => trivial⟩

theorem anywhere_coversItems (es : List Expr) : anywhere.CoversItems es :=
  fun _ _ => ⟨trivial, fun _ _ _ _ => trivial⟩

theorem anywhere_coversStmt (st : Stmt) : anywhere.CoversStmt st :=
  fun _ _ => ⟨trivial, fun e _ => anywhere_covers e⟩

theorem anywhere_coversBlock (body : List Stmt) : anywhere.CoversBlock body :=
  fun _ _ => ⟨trivial, fun e _ => anywhere_covers e⟩

variable {s : Sites} {p : Position}

theorem coversNode_call {callee : String} {args : List Expr} (calls : s.calls p args.length) :
    s.CoversNode (.call p callee args) := by
  refine ⟨s.fails_of_calls calls, ?_⟩
  rintro _ _ _ ⟨⟩
  exact calls

/-! ## The parts of a statement that is covered -/

theorem coversBlock_cons {st : Stmt} {rest : List Stmt} :
    s.CoversBlock (st :: rest) ↔ s.CoversStmt st ∧ s.CoversBlock rest := by
  simp [CoversBlock, CoversStmt, Stmt.blockParts, or_imp, forall_and]

/-- What a covered statement reports and evaluates itself. -/
theorem CoversStmt.step {st : Stmt} (covers : s.CoversStmt st) : s.CoversStep st :=
  covers st st.mem_parts_self

theorem CoversStmt.branch {condition : Expr} {yes : List Stmt} {no : Option (List Stmt)}
    (covers : s.CoversStmt (.branch p condition yes no)) :
    s.CoversBlock yes ∧ ∀ body ∈ no, s.CoversBlock body := by
  cases no with
  | none =>
      refine ⟨fun part inside => covers part (by simp [Stmt.parts, inside]), ?_⟩
      rintro body ⟨⟩
  | some no =>
      refine ⟨fun part inside => covers part (by simp [Stmt.parts, inside]), ?_⟩
      rintro body ⟨⟩ part inside
      exact covers part (by simp [Stmt.parts, inside])

theorem CoversStmt.loop {start : LoopStart} {condition step : Option Expr} {body : List Stmt}
    (covers : s.CoversStmt (.loop p start condition step body)) :
    (∀ st ∈ start.statement?, s.CoversStep st) ∧ (∀ e ∈ condition, s.Covers e) ∧
      (∀ e ∈ step, s.Covers e) ∧ s.CoversBlock body := by
  have own := covers.step.2
  refine ⟨fun st first => ?_, fun e first => ?_, fun e last => ?_, fun part inside => ?_⟩
  · exact covers st (by simp_all [Stmt.parts])
  · exact own e (by simp_all [Stmt.operands])
  · exact own e (by simp_all [Stmt.operands])
  · exact covers part (by simp [Stmt.parts, inside])

theorem CoversStmt.block {body : List Stmt} (covers : s.CoversStmt (.block p body)) :
    s.CoversBlock body :=
  fun part inside => covers part (by simp [Stmt.parts, inside])

end Sites

namespace Function

/-- The sites of the body. -/
def sites (f : Function) : Sites where
  fails := f.HasNode
  calls p count := f.HasCall p count ∨ f.HasCall p 2 ∧ count = 1
  fails_of_calls := by
    rintro p count (call | ⟨call, -⟩) <;> exact call.hasNode
  callback := by
    rintro p (call | ⟨-, impossible⟩)
    · exact .inr ⟨call, rfl⟩
    · cases impossible

theorem sites_covers (f : Function) : f.sites.CoversBlock f.body := by
  intro st member
  refine ⟨.inl ⟨st, member, rfl⟩, fun e operand part inside => ?_⟩
  have known : part ∈ f.expressions := mem_expressions member operand inside
  refine ⟨.inr ⟨part, known, rfl⟩, ?_⟩
  rintro p callee args rfl
  exact .inl ⟨callee, args, known, rfl⟩

end Function

end Script
