/-
# Script.Proofs.Eval.Written -- what is evaluated is written in the program

Work evaluates what is written in it, and hands it on to its parts; calling a function brings in
what is written in its body (`all_parts`).  So a property of all expressions of a program is one of
all that a call comes to (`Task.Reaches.all`).
-/
import Script.Proofs.Eval.Task
import Script.Proofs.Eval.Upkeep

namespace Script

set_option autoImplicit false

/-- The expression is written in a function of the table. -/
def FunctionTable.Writes (t : FunctionTable) (e : Expr) : Prop :=
  ∃ name f, t.find? name = some f ∧ e ∈ f.expressions

namespace Stmt

variable {P : Expr → Prop}

/-- All expressions that the statements evaluate themselves are such. -/
def AllCode (P : Expr → Prop) (statements : List Stmt) : Prop :=
  ∀ e ∈ code statements, P e

theorem allCode_cons {st : Stmt} {rest : List Stmt} :
    AllCode P (st :: rest) ↔ (∀ e ∈ st.operands, e.All P) ∧ AllCode P rest := by
  rw [AllCode, code_cons, List.forall_mem_append, List.forall_mem_flatMap]
  rfl

theorem allCode_append {statements more : List Stmt} :
    AllCode P (statements ++ more) ↔ AllCode P statements ∧ AllCode P more := by
  rw [AllCode, code_append, List.forall_mem_append]
  rfl

end Stmt

namespace Eval

/-- All expressions of the work are such, the call that it makes included. -/
def Work.All (P : Expr → Prop) : Work → Prop
  | .call p callee args => (Expr.call p callee args).All P
  | w => ∀ e ∈ w.code, P e

variable {t : FunctionTable} {steps : Nat} {s : State} {P : Expr → Prop}

section

variable {w : Work} {α : Type} {o : Outcome α} {next : α → State → List (Work × State)}

theorem all_only (all : w.All P) : ∀ part ∈ [(w, s)], part.1.All P :=
  List.forall_mem_singleton.2 all

theorem all_after (later : ∀ a s', ∀ part ∈ next a s', part.1.All P) :
    ∀ part ∈ o.andThen next, part.1.All P :=
  Outcome.forall_andThen.2 fun a s' _ => later a s'

theorem all_then (all : w.All P) (later : ∀ a s', ∀ part ∈ next a s', part.1.All P) :
    ∀ part ∈ (w, s) :: o.andThen next, part.1.All P :=
  List.forall_mem_cons.2 ⟨all, all_after later⟩

end

/-! ## The parts of each kind of work -/

theorem all_expr_parts {e : Expr} (all : e.All P) :
    ∀ part ∈ (Work.expr e).parts t steps s, part.1.All P := by
  cases e with
  | number | string | bool | null | typeName | name => exact List.forall_mem_nil _
  | list p items => exact all_only (Expr.all_list.1 all).2
  | dict p entries => exact all_only (Expr.all_dict.1 all).2
  | assign p word value => exact all_only (Expr.all_assign.1 all).2
  | unary p op operand => exact all_only (Expr.all_unary.1 all).2
  | field p target word => exact all_only (Expr.all_field.1 all).2
  | method p target word args => exact all_only (Expr.all_method.1 all).2.1
  | call p callee args => exact all_only all
  | binary p op left right =>
      obtain ⟨-, left, right⟩ := Expr.all_binary.1 all
      exact all_then left fun _ _ => all_only right
  | index p target i =>
      obtain ⟨-, target, i⟩ := Expr.all_index.1 all
      exact all_then target fun _ _ => all_only i
  | setIndex p target i value =>
      obtain ⟨-, ⟨target, i⟩, value⟩ := Expr.all_setIndex.1 all
      exact all_then target fun _ _ => all_then i fun _ _ => all_only value

theorem all_intrinsic_parts (p : Position) (i : Intrinsic) (args : List Value) :
    ∀ part ∈ (Work.intrinsic p i args).parts t steps s, part.1.All P := by
  by_cases mapping : i = .map
  · subst mapping
    rcases args with _ | ⟨v, _ | ⟨callback, _ | ⟨more, rest⟩⟩⟩
    case cons.cons.nil =>
      cases v with
      | list a => exact all_after fun name s₁ => all_only (List.forall_mem_nil P)
      | string text => exact all_after fun name s₁ => all_only (List.forall_mem_nil P)
      | _ => exact List.forall_mem_nil _
    case nil => exact List.forall_mem_nil _
    all_goals cases v <;> exact List.forall_mem_nil _
  · rw [Work.parts_intrinsic mapping]
    exact List.forall_mem_nil _

theorem all_rounds {condition step : Option Expr} {body : List Stmt} :
    (Work.rounds condition step body).All P ↔ (∀ e ∈ condition.toList ++ step.toList, e.All P) ∧
      Stmt.AllCode P (Stmt.blockParts body) := by
  change (∀ e ∈ (condition.toList ++ step.toList).flatMap Expr.parts ++
    Stmt.code (Stmt.blockParts body), P e) ↔ _
  rw [List.forall_mem_append, List.forall_mem_flatMap]
  rfl

theorem all_statement_parts {st : Stmt} (all : Stmt.AllCode P st.parts) :
    ∀ part ∈ (Work.statement st).parts t steps s, part.1.All P := by
  cases st with
  | declare p word value =>
      have own : value.All P := List.forall_mem_singleton.1 (Stmt.allCode_cons.1 all).1
      exact all_only own
  | expr e =>
      have own : e.All P := List.forall_mem_singleton.1 (Stmt.allCode_cons.1 all).1
      exact all_only own
  | «return» p value =>
      cases value with
      | none => exact List.forall_mem_nil _
      | some e =>
          have own : e.All P := List.forall_mem_singleton.1 (Stmt.allCode_cons.1 all).1
          exact all_only own
  | branch p condition yes no =>
      have parted : condition.All P ∧ Stmt.AllCode P (Stmt.blockParts yes) ∧
          ∀ body ∈ no, Stmt.AllCode P (Stmt.blockParts body) := by
        cases no <;>
          simpa [Stmt.parts, Stmt.allCode_cons, Stmt.allCode_append, Stmt.operands] using all
      refine all_then parted.1 fun v s₁ => ?_
      cases s₁.store.truthy v with
      | true => exact all_only parted.2.1
      | false =>
          cases no with
          | none => exact List.forall_mem_nil _
          | some no => exact all_only (parted.2.2 no rfl)
  | loop p start condition step body =>
      rw [Stmt.parts, Stmt.allCode_cons, Stmt.allCode_append] at all
      obtain ⟨own, begins, inside⟩ := all
      have rounds : (Work.rounds condition step body).All P := all_rounds.2 ⟨own, inside⟩
      cases start with
      | nothing => exact all_only rounds
      | declare q word value =>
          have first : value.All P :=
            List.forall_mem_singleton.1 (Stmt.allCode_cons.1 begins).1
          exact all_then first fun _ _ => all_after fun _ _ => all_only rounds
      | expr e =>
          have first : e.All P := List.forall_mem_singleton.1 (Stmt.allCode_cons.1 begins).1
          exact all_then first fun _ _ => all_only rounds
  | block p body => exact all_only (Stmt.allCode_cons.1 all).2

theorem all_round_parts {condition step : Option Expr} {body : List Stmt}
    (all : (Work.rounds condition step body).All P) :
    ∀ part ∈ Work.roundParts t steps condition step body s, part.1.All P := by
  obtain ⟨own, inside⟩ := all_rounds.1 all
  refine all_then inside fun flow s₁ => ?_
  cases flow with
  | returned v => exact List.forall_mem_nil _
  | next =>
      cases step with
      | none => exact all_only all
      | some e =>
          have last : e.All P := own e (by simp)
          exact all_then last fun _ _ => all_only all

theorem all_rounds_parts {condition step : Option Expr} {body : List Stmt}
    (all : (Work.rounds condition step body).All P) :
    ∀ part ∈ (Work.rounds condition step body).parts t steps s, part.1.All P := by
  cases condition with
  | none => exact all_round_parts all
  | some e =>
      have first : e.All P := (all_rounds.1 all).1 e (by simp)
      refine all_then first fun v s₁ => ?_
      split
      · exact all_round_parts all
      · exact List.forall_mem_nil _

theorem all_statements_parts {body : List Stmt} (all : Stmt.AllCode P (Stmt.blockParts body)) :
    ∀ part ∈ (Work.statements body).parts t steps s, part.1.All P := by
  cases body with
  | nil => exact List.forall_mem_nil _
  | cons first rest =>
      rw [Stmt.blockParts, Stmt.allCode_append] at all
      refine all_then all.1 fun flow s₁ => ?_
      cases flow with
      | next => exact all_only all.2
      | returned v => exact List.forall_mem_nil _

section

variable (program : ∀ e, t.Writes e → P e)

include program

theorem all_callee {p : Position} {name called : String} {args : List Value} {count : Nat}
    {f : Callee} (found : t.callee called count = .ok f) : (Work.invoke p name f args).All P := by
  cases f with
  | intrinsic i => exact List.forall_mem_nil P
  | user f =>
      exact fun e member => program e ⟨called, f, (FunctionTable.find?_of_callee found).2.1, member⟩

theorem all_parts {w : Work} (all : w.All P) : ∀ part ∈ w.parts t steps s, part.1.All P := by
  cases w with
  | expr e => exact all_expr_parts all
  | exprs es =>
      cases es with
      | nil => exact List.forall_mem_nil _
      | cons e rest =>
          obtain ⟨first, rest⟩ := Expr.allItems_cons.1 all
          exact all_then first fun _ _ => all_only rest
  | dictEntries p entries filled =>
      rcases entries with _ | ⟨⟨key, e⟩, rest⟩
      · exact List.forall_mem_nil _
      · change Expr.AllEntries P ((key, e) :: rest) at all
        obtain ⟨first, rest⟩ := Expr.allEntries_cons.1 all
        exact all_after fun _ _ => all_then first fun _ _ => all_only rest
  | call p callee args =>
      simp only [Work.parts]
      split
      · exact List.forall_mem_nil _
      · rename_i f found
        exact all_then (Expr.all_call.1 all).2 fun _ _ => all_only (all_callee program found)
  | apply p name args =>
      simp only [Work.parts]
      split
      · exact List.forall_mem_nil _
      · rename_i f found
        exact all_only (all_callee program found)
  | invoke p name f args =>
      cases f with
      | intrinsic i => exact all_only (List.forall_mem_nil P)
      | user f => exact all_after fun _ _ => all_only all
  | intrinsic p i args => exact all_intrinsic_parts p i args
  | mapItems p name items =>
      cases items with
      | nil => exact List.forall_mem_nil _
      | cons item rest => exact all_then (List.forall_mem_nil P) fun _ _ => all_only (List.forall_mem_nil P)
  | mapText p name cs joined =>
      cases cs with
      | nil => exact List.forall_mem_nil _
      | cons c rest => exact all_then (List.forall_mem_nil P) fun _ _ => all_after fun _ _ => all_only (List.forall_mem_nil P)
  | statement st => exact all_statement_parts all
  | rounds condition step body => exact all_rounds_parts all
  | statements body => exact all_statements_parts all

/-- **All that is come to is such as the program.** -/
theorem Task.Reaches.all {root task : Task} (reached : root.Reaches t task)
    (begun : root.work.All P) : task.work.All P := by
  induction reached with
  | refl => exact begun
  | tail _ part ih =>
      cases part with
      | of member => exact all_parts program ih _ member

end

end Eval

end Script
