/-
# Script.Proofs.Syntax.Operators -- operators and the signs they are written with

The parser finds the operator of a token by its kind; the sign of an operator is the one
kind it is found by.  `>` is found only where it is an operator.
-/
import Script.Proofs.Syntax.Grammar
import Script.Syntax.Parser

namespace Script

set_option autoImplicit false

namespace BinaryOp

variable {greater : Bool} {level : Nat} {kind : Token.Kind} {op : BinaryOp}

theorem level_le (op : BinaryOp) : op.level ≤ 6 := by
  cases op <;> decide

theorem sign_of_ofKind? (found : ofKind? greater kind = some op) :
    kind = .sign op.sign ∧ (op = .greater → greater = true) := by
  unfold ofKind? at found
  split at found
  case h_7 => cases greater <;> cases found; exact ⟨rfl, fun _ => rfl⟩
  case h_14 => cases found
  all_goals cases found; exact ⟨rfl, fun same => by cases same⟩

theorem ofKind?_sign (op : BinaryOp) (allowed : op = .greater → greater = true) :
    ofKind? greater (.sign op.sign) = some op := by
  cases op <;> first | rfl | simp [sign, ofKind?, allowed rfl]

theorem atLevel?_eq_some (found : atLevel? greater level kind = some op) :
    ofKind? greater kind = some op ∧ level ≤ op.level := by
  obtain ⟨operator, tight⟩ := Option.filter_eq_some_iff.1 found
  exact ⟨operator, of_decide_eq_true tight⟩

theorem level_lt_of_atLevel? (none : atLevel? greater level kind = none)
    (found : ofKind? greater kind = some op) : op.level < level := by
  have loose := Option.filter_eq_none_iff.1 none op found
  simpa using loose

theorem atLevel?_sign (op : BinaryOp) (allowed : op = .greater → greater = true)
    (tight : level ≤ op.level) : atLevel? greater level (.sign op.sign) = some op := by
  simp [atLevel?, ofKind?_sign op allowed, tight]

theorem atLevel?_eq_none (loose : ∀ op, ofKind? greater kind = some op → op.level < level) :
    atLevel? greater level kind = none := by
  refine Option.filter_eq_none_iff.2 fun op found => ?_
  simpa using loose op found

end BinaryOp

theorem UnaryOp.sign_of_ofKind? {kind : Token.Kind} {op : UnaryOp}
    (found : ofKind? kind = some op) : kind = .sign op.sign := by
  unfold ofKind? at found
  split at found <;> cases found <;> rfl

theorem UnaryOp.ofKind?_sign (op : UnaryOp) : ofKind? (.sign op.sign) = some op := by
  cases op <;> rfl

namespace Parser

/-- No operator on the tape binds tighter than the level. -/
def LooserThan (greater : Bool) (level : Nat) (tape : Tape) : Prop :=
  ∀ op, BinaryOp.ofKind? greater tape.current.kind = some op → op.level < level

end Parser

end Script
