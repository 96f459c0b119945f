/-
# Script.Proofs.Syntax.Soundness.Statements -- statements read stand in the text

A statement is read as a phrase of the grammar, but for one: a `return` without a value
is no statement of its own, it ends the block it stands in.  What is known of it is that
the closing brace comes next (`BareReturn`).
-/
import Script.Proofs.Syntax.Soundness.Expressions

namespace Script

set_option autoImplicit false

open Grammar Reader

namespace Parser

variable {steps : Nat}

theorem derives_expr (steps : Nat) : (expr true steps).Derives (Expression true) :=
  (sound steps).expr true

variable {tape rest : Tape}

theorem declaration_ok {p : Position} {name : String} {value : Expr}
    (ran : declaration steps tape = .ok ((p, name, value), rest)) :
    ∃ tokens, tape.Reads tokens rest ∧ Declaration tokens p name value := by
  simp only [declaration] at ran
  obtain ⟨word, _, took, ran⟩ := bind_ok ran
  obtain ⟨opens, readWord⟩ := expectWord_ok took
  obtain ⟨name, _, took, ran⟩ := bind_ok ran
  obtain ⟨names, readName⟩ := expectName_ok took
  obtain ⟨sign, _, took, ran⟩ := bind_ok ran
  obtain ⟨assigns, readSign⟩ := expectSign_ok took
  obtain ⟨value, _, right, ran⟩ := bind_ok ran
  obtain ⟨tokens, readValue, expression⟩ := derives_expr steps right
  obtain ⟨same, rfl⟩ := pure_ok ran
  cases same
  exact ⟨_, ((readWord.trans readName).trans readSign).trans readValue,
    .declare opens names assigns expression⟩

theorem derives_loopStart (steps : Nat) : (loopStart steps).Derives Start := by
  intro tape start rest ran
  simp only [loopStart, kind_bind] at ran
  obtain ⟨choice, shape, ran⟩ := chosen ran
  split at shape <;> subst shape
  case h_1 =>
    obtain ⟨rfl, rfl⟩ := pure_ok ran
    exact ⟨[], .refl tape, .nothing⟩
  case h_2 =>
    obtain ⟨⟨p, name, value⟩, _, declares, ran⟩ := bind_ok ran
    obtain ⟨tokens, reads, declaration⟩ := declaration_ok declares
    obtain ⟨rfl, rfl⟩ := pure_ok ran
    exact ⟨tokens, reads, .declare declaration⟩
  case h_3 =>
    obtain ⟨e, _, first, ran⟩ := bind_ok ran
    obtain ⟨tokens, reads, expression⟩ := derives_expr steps first
    obtain ⟨rfl, rfl⟩ := pure_ok ran
    exact ⟨tokens, reads, .expr expression⟩

/-- The expression is absent only in front of the closing sign. -/
theorem optionalExpr_ok {close : Sign} {value : Option Expr}
    (ran : optionalExpr close steps tape = .ok (value, rest)) :
    (value = none ∧ tape = rest ∧ rest.current.kind = .sign close) ∨
      ∃ e tokens, value = some e ∧ tape.Reads tokens rest ∧ Expression true tokens e := by
  simp only [optionalExpr, sees_bind] at ran
  split at ran
  case isTrue found =>
    obtain ⟨rfl, rfl⟩ := pure_ok ran
    exact .inl ⟨rfl, rfl, of_decide_eq_true found⟩
  case isFalse =>
    obtain ⟨e, _, first, ran⟩ := bind_ok ran
    obtain ⟨tokens, reads, expression⟩ := derives_expr steps first
    obtain ⟨rfl, rfl⟩ := pure_ok ran
    exact .inr ⟨e, tokens, rfl, reads, expression⟩

theorem derives_optionalExpr (close : Sign) (steps : Nat) :
    (optionalExpr close steps).Derives Optional := by
  intro tape value rest ran
  rcases optionalExpr_ok ran with ⟨rfl, rfl, -⟩ | ⟨e, tokens, rfl, reads, expression⟩
  · exact ⟨[], .refl tape, .none⟩
  · exact ⟨tokens, reads, .some expression⟩

/-- A `return` without a value, right before a closing brace. -/
def BareReturn (tape : Tape) (st : Stmt) (rest : Tape) : Prop :=
  ∃ word, word.kind = .keyword .return ∧ tape.Reads [word] rest ∧
    st = .return word.position none ∧ rest.current.kind = .sign .closeBrace

/-- What the statement readers build within a number of steps stands in the text. -/
structure SoundStmt (steps : Nat) : Prop where
  statement {tape : Tape} {st : Stmt} {rest : Tape} : statement steps tape = .ok (st, rest) →
    (∃ tokens, tape.Reads tokens rest ∧ Statement tokens st) ∨ BareReturn tape st rest
  block : (block steps).Derives Block
  statements : (statements steps).Derives Statements

/-- Before a closing brace there are no statements. -/
theorem statements_of_closed {body : List Stmt} (closed : tape.current.kind = .sign .closeBrace)
    (ran : statements steps tape = .ok (body, rest)) : [] = body ∧ tape = rest := by
  cases steps with
  | zero => cases ran
  | succ steps =>
      simp only [statements, sees_bind, closed] at ran
      exact pure_ok ran

theorem statement_succ (sound : SoundStmt steps) {st : Stmt}
    (ran : statement (steps + 1) tape = .ok (st, rest)) :
    (∃ tokens, tape.Reads tokens rest ∧ Statement tokens st) ∨ BareReturn tape st rest := by
  simp only [statement, current_bind] at ran
  obtain ⟨choice, shape, ran⟩ := chosen ran
  split at shape <;> subst shape
  case h_1 =>
    obtain ⟨⟨p, name, value⟩, _, declares, ran⟩ := bind_ok ran
    obtain ⟨tokens, reads, declaration⟩ := declaration_ok declares
    obtain ⟨rfl, rfl⟩ := pure_ok ran
    exact .inl ⟨tokens, reads, .declare declaration⟩
  case h_2 returns =>
    obtain ⟨word, _, took, ran⟩ := bind_ok ran
    obtain ⟨rfl, readWord⟩ := take_ok took (by simp [returns])
    obtain ⟨value, _, optional, ran⟩ := bind_ok ran
    obtain ⟨rfl, rfl⟩ := pure_ok ran
    rcases optionalExpr_ok optional with ⟨rfl, rfl, closed⟩ | ⟨e, tokens, rfl, reads, expression⟩
    · exact .inr ⟨_, returns, readWord, rfl, closed⟩
    · exact .inl ⟨_, readWord.trans reads, .return returns expression⟩
  case h_3 tests =>
    obtain ⟨word, _, took, ran⟩ := bind_ok ran
    obtain ⟨rfl, readWord⟩ := take_ok took (by simp [tests])
    obtain ⟨opening, _, took, ran⟩ := bind_ok ran
    obtain ⟨opens, readOpening⟩ := expectSign_ok took
    obtain ⟨condition, _, _, _, ran, expression, closes, readCondition⟩ :=
      closed_ok (derives_expr steps) ran
    obtain ⟨yes, _, first, ran⟩ := bind_ok ran
    obtain ⟨_, readYes, block⟩ := sound.block first
    have reads := ((readWord.trans readOpening).trans readCondition).trans readYes
    obtain ⟨accepted, _, accepts, ran⟩ := bind_ok ran
    rcases accept_ok (by simp) accepts with ⟨rfl, other, otherwise, readOther⟩ | ⟨rfl, rfl, -⟩
    · obtain ⟨no, _, second, ran⟩ := bind_ok ran
      obtain ⟨_, readNo, alternative⟩ := sound.block second
      obtain ⟨rfl, rfl⟩ := pure_ok ran
      exact .inl ⟨_, (reads.trans readOther).trans readNo,
        .choice tests opens expression closes block otherwise alternative⟩
    · obtain ⟨rfl, rfl⟩ := pure_ok ran
      exact .inl ⟨_, reads, .branch tests opens expression closes block⟩
  case h_4 repeats =>
    obtain ⟨word, _, took, ran⟩ := bind_ok ran
    obtain ⟨rfl, readWord⟩ := take_ok took (by simp [repeats])
    obtain ⟨opening, _, took, ran⟩ := bind_ok ran
    obtain ⟨opens, readOpening⟩ := expectSign_ok took
    obtain ⟨start, _, _, _, ran, starting, tested, readStart⟩ :=
      closed_ok (derives_loopStart steps) ran
    obtain ⟨condition, _, _, _, ran, testing, stepped, readTest⟩ :=
      closed_ok (derives_optionalExpr _ steps) ran
    obtain ⟨step, _, _, _, ran, stepping, closes, readStep⟩ :=
      closed_ok (derives_optionalExpr _ steps) ran
    obtain ⟨body, _, rounds, ran⟩ := bind_ok ran
    obtain ⟨_, readBody, block⟩ := sound.block rounds
    obtain ⟨rfl, rfl⟩ := pure_ok ran
    have header := ((readWord.trans readOpening).trans readStart).trans readTest
    refine .inl ⟨_, (header.trans readStep).trans readBody, ?_⟩
    simpa using
      Statement.loop repeats opens starting tested testing stepped stepping closes block
  case h_5 =>
    obtain ⟨body, _, inside, ran⟩ := bind_ok ran
    obtain ⟨_, reads, block⟩ := sound.block inside
    obtain ⟨rfl, rfl⟩ := pure_ok ran
    cases block with
    | braces opens statements closes =>
        rw [reads.current_eq]
        exact .inl ⟨_, reads, .block (.braces opens statements closes)⟩
  case h_6 =>
    obtain ⟨e, _, first, ran⟩ := bind_ok ran
    obtain ⟨tokens, reads, expression⟩ := derives_expr steps first
    obtain ⟨rfl, rfl⟩ := pure_ok ran
    exact .inl ⟨tokens, reads, .expr expression⟩

theorem block_succ (sound : SoundStmt steps) : (block (steps + 1)).Derives Block := by
  intro tape body rest ran
  simp only [block] at ran
  obtain ⟨opening, _, took, ran⟩ := bind_ok ran
  obtain ⟨opens, readOpening⟩ := expectSign_ok took
  obtain ⟨body, _, _, _, ran, statements, closes, readBody⟩ := closed_ok sound.statements ran
  obtain ⟨rfl, rfl⟩ := pure_ok ran
  exact ⟨_, readOpening.trans readBody, .braces opens statements closes⟩

theorem statements_succ (sound : SoundStmt steps) :
    (statements (steps + 1)).Derives Statements := by
  intro tape body rest ran
  simp only [statements, sees_bind] at ran
  split at ran
  case isTrue =>
    obtain ⟨rfl, rfl⟩ := pure_ok ran
    exact ⟨[], .refl tape, .nil⟩
  case isFalse =>
    obtain ⟨st, _, first, ran⟩ := bind_ok ran
    obtain ⟨others, _, follows, ran⟩ := bind_ok ran
    obtain ⟨rfl, rfl⟩ := pure_ok ran
    rcases sound.statement first with
      ⟨tokens, reads, statement⟩ | ⟨word, returns, readWord, rfl, closed⟩
    · obtain ⟨later, more, statements⟩ := sound.statements follows
      exact ⟨tokens ++ later, reads.trans more, .cons statement statements⟩
    · obtain ⟨rfl, rfl⟩ := statements_of_closed closed follows
      exact ⟨[word], readWord, .bareReturn returns⟩

theorem soundStmt : ∀ steps, SoundStmt steps
  | 0 =>
      { statement := fun ran => by cases ran
        block := derives_exhausted
        statements := derives_exhausted }
  | steps + 1 =>
      have sound := soundStmt steps
      { statement := statement_succ sound
        block := block_succ sound
        statements := statements_succ sound }

end Parser

end Script
