/-
# Script.Proofs.Eval.Settled -- work that gives a result

All that work comes to gives a result if the work itself does (`Task.Reaches.settled`), since its
parts do.  In particular every index that is read in such a run was there (`Task.Reaches.reads`).
-/
import Script.Proofs.Eval.Division
import Script.Proofs.Eval.Tandem

namespace Script

set_option autoImplicit false

namespace Eval

variable {t : FunctionTable}

/-- The parts of work that gives a result give one. -/
theorem settled_part {steps : Nat} {s : State} {w : Work}
    (settled : w.verdict? t (steps + 1) s = some none) :
    ∀ part ∈ w.parts t steps s, part.1.verdict? t steps part.2 = some none := by
  rcases divided_or_refused t steps s w with divided | ⟨failure, -, failed⟩
  · exact divided.needs settled
  · rw [settled] at failed
    cases failed

/-- **In a run that gives a result all that is reached gives one.** -/
theorem Task.Reaches.settled {root task : Task} (reached : root.Reaches t task)
    (settled : root.work.verdict? t root.steps root.state = some none) :
    task.work.verdict? t task.steps task.state = some none := by
  induction reached with
  | refl => exact settled
  | tail _ part ih =>
      cases part with
      | of member => exact settled_part ih _ member

/-- What is read at an index in such a run is there. -/
theorem Task.Reaches.reads {root : Task} {steps : Nat} {p : Position} {e e' : Expr} {s : State}
    (reached : root.Reaches t ⟨steps, .expr (.index p e e'), s⟩)
    (settled : root.work.verdict? t root.steps root.state = some none) :
    ∃ v w s₁ s₂ r, expr t e (steps - 1) s = .done v s₁ ∧ expr t e' (steps - 1) s₁ = .done w s₂ ∧
      s₂.store.indexGet v w = .ok r := by
  have given := reached.settled settled
  cases steps with
  | zero => cases given
  | succ steps =>
      change (expr t (.index p e e') (steps + 1) s).verdict? = some none at given
      simp only [expr] at given
      obtain ⟨v, s₁, first, rest⟩ := Run.result_bind given
      obtain ⟨w, s₂, second, last⟩ := Run.result_bind rest
      obtain ⟨r, s₃, done⟩ := Outcome.verdict?_eq_result.1 last
      exact ⟨v, w, s₁, s₂, r, first, second, (Run.attempt_done done).2⟩

end Eval

end Script
