/-
# Script.Proofs.Syntax.Termination -- reading ends, and every round takes a token

A reader of the parser is given a number of steps and hands one less to those it calls.  Between two
tokens it calls at most eight others before it takes one or fails, so eight steps for each token are
enough (`Parser.finishing`, `Parser.finishes_program`), and with more of them it does the same.

A value comes only after a token has been taken, except from the readers for what may be missing.
The loops of the parser are rounds one after the other (`Reader.loop`), and a round takes a token
unless it is the last (`Parser.looping`).  The main statement is `Program.reading_ends`.
-/
import Mathlib
import Script.Proofs.Syntax.Runs
import Script.Proofs.Syntax.Soundness.Expressions

namespace Script

set_option autoImplicit false

open Reader

namespace Parser

/-- The expression readers finish on every tape, in `more` steps as in `steps`.  Eight steps for
each token are enough, and a few for the readers that are called before the next token is taken. -/
structure Finishing (steps more : Nat) : Prop where
  expr (greater : Bool) (tape : Tape) : Finishes (8 * tape.length + 4 ≤ steps) (atLeast 1)
    (expr greater steps) (expr greater more) tape
  operation (greater : Bool) (level : Nat) (tape : Tape) :
    Finishes (8 * tape.length + 3 ≤ steps) (atLeast 1) (operation greater level steps)
      (operation greater level more) tape
  operators (greater : Bool) (level : Nat) (left : Expr) (tape : Tape) :
    Finishes (8 * tape.length + 1 ≤ steps) (atLeast 0) (operators greater level left steps)
      (operators greater level left more) tape
  unary (tape : Tape) : Finishes (8 * tape.length + 2 ≤ steps) (atLeast 1) (unary steps)
      (unary more) tape
  accesses (target : Expr) (tape : Tape) : Finishes (8 * tape.length + 1 ≤ steps) (atLeast 0)
    (accesses target steps) (accesses target more) tape
  primary (tape : Tape) :
    Finishes (8 * tape.length + 1 ≤ steps) (atLeast 1) (primary steps) (primary more) tape
  arguments (tape : Tape) :
    Finishes (8 * tape.length + 1 ≤ steps) (atLeast 1) (arguments steps) (arguments more) tape
  items (close : Sign) (tape : Tape) : Finishes (8 * tape.length + 5 ≤ steps) (atLeast 0)
    (items close steps) (items close more) tape
  moreItems (tape : Tape) :
    Finishes (8 * tape.length + 1 ≤ steps) (atLeast 0) (moreItems steps) (moreItems more) tape
  entries (tape : Tape) :
    Finishes (8 * tape.length + 2 ≤ steps) (atLeast 0) (entries steps) (entries more) tape
  someEntries (tape : Tape) :
    Finishes (8 * tape.length + 1 ≤ steps) (atLeast 1) (someEntries steps) (someEntries more) tape

variable {steps more : Nat} {tape : Tape}

theorem finishes_assignment {enough : Prop} (target value : Expr) (position : Position) :
    Finishes enough (atLeast 0) (assignment target value position)
      (assignment target value position)
      tape := by
  cases target <;> first | exact finishes_pure rfl | exact finishes_failAt (.inr rfl)

theorem finishes_expr (on : Finishing steps more) (greater : Bool) (tape : Tape) :
    Finishes (8 * tape.length + 4 ≤ steps + 1) (atLeast 1) (expr greater (steps + 1))
      (expr greater (more + 1)) tape := by
  simp only [expr]
  refine ((on.operation greater 1 tape).weaken (by omega)).bind fun target mid _ => ?_
  refine finishes_sees (fun assigns => ?_) (finishes_pure rfl)
  refine (finishes_take (by simp [assigns])).bind fun sign mid _ => ?_
  refine ((on.expr greater mid).uncounted (by omega)).bind fun value mid _ => ?_
  exact finishes_assignment target value sign.position

theorem finishes_operation (on : Finishing steps more) (greater : Bool) (level : Nat)
    (tape : Tape) :
    Finishes (8 * tape.length + 3 ≤ steps + 1) (atLeast 1) (operation greater level (steps + 1))
      (operation greater level (more + 1)) tape := by
  simp only [operation]
  refine ((on.unary tape).weaken (by omega)).bind fun left mid _ => ?_
  exact (on.operators greater level left mid).weaken (by omega)

theorem finishes_operators (on : Finishing steps more) (greater : Bool) (level : Nat)
    (left : Expr) (tape : Tape) :
    Finishes (8 * tape.length + 1 ≤ steps + 1) (atLeast 0)
      (operators greater level left (steps + 1))
      (operators greater level left (more + 1)) tape := by
  simp only [operators]
  refine finishes_kind ?_
  split
  case h_1 => exact finishes_pure rfl
  case h_2 op found =>
    have kind := (BinaryOp.sign_of_ofKind? (BinaryOp.atLevel?_eq_some found).1).1
    refine (finishes_take (by simp [kind])).bind fun sign mid _ => ?_
    refine ((on.operation greater (op.level + 1) mid).uncounted (by omega)).bind ?_
    intro right mid _
    exact (on.operators greater level _ mid).weaken (by omega)

theorem finishes_unary (on : Finishing steps more) (tape : Tape) :
    Finishes (8 * tape.length + 2 ≤ steps + 1) (atLeast 1) (unary (steps + 1)) (unary (more + 1))
      tape := by
  simp only [unary]
  refine finishes_kind ?_
  split
  case h_1 op found =>
    have kind := UnaryOp.sign_of_ofKind? found
    refine (finishes_take (by simp [kind])).bind fun sign mid _ => ?_
    refine ((on.unary mid).uncounted (by omega)).bind fun operand mid _ => ?_
    exact finishes_pure rfl
  case h_2 =>
    refine ((on.primary tape).weaken (by omega)).bind fun target mid _ => ?_
    exact (on.accesses target mid).weaken (by omega)

theorem finishes_accesses (on : Finishing steps more) (target : Expr) (tape : Tape) :
    Finishes (8 * tape.length + 1 ≤ steps + 1) (atLeast 0) (accesses target (steps + 1))
      (accesses target (more + 1)) tape := by
  simp only [accesses]
  refine finishes_kind ?_
  split
  case h_1 opens =>
    refine (finishes_take (by simp [opens])).bind fun bracket mid _ => ?_
    refine ((on.expr true mid).uncounted (by omega)).bind fun index mid _ => ?_
    refine (finishes_expectSign _).bind fun _ mid _ => ?_
    exact (on.accesses _ mid).weaken (by omega)
  case h_2 points =>
    refine (finishes_take (by simp [points])).bind fun _ mid _ => ?_
    refine finishes_expectName.bind fun name mid _ => finishes_sees (fun _ => ?_) ?_
    · refine ((on.arguments mid).uncounted (by omega)).bind fun args mid _ => ?_
      exact (on.accesses _ mid).weaken (by omega)
    · exact (on.accesses _ mid).weaken (by omega)
  case h_3 => exact finishes_pure rfl

theorem finishes_primary (on : Finishing steps more) (tape : Tape) :
    Finishes (8 * tape.length + 1 ≤ steps + 1) (atLeast 1) (primary (steps + 1))
      (primary (more + 1))
      tape := by
  simp only [primary]
  refine finishes_current ?_
  split
  case h_1 e found =>
    exact (finishes_take (literal_of_literal? found).2).bind fun _ mid _ => finishes_pure rfl
  case h_2 =>
    split
    case h_1 opens =>
      refine (finishes_take (by simp [opens])).bind fun _ mid _ => ?_
      refine ((on.items .closeBracket mid).weaken (by omega)).bind fun items mid _ => ?_
      exact (finishes_expectSign _).bind fun _ mid _ => finishes_pure rfl
    case h_2 opens =>
      refine (finishes_take (by simp [opens])).bind fun _ mid _ => ?_
      refine ((on.entries mid).weaken (by omega)).bind fun entries mid _ => ?_
      exact (finishes_expectSign _).bind fun _ mid _ => finishes_pure rfl
    case h_3 named =>
      refine (finishes_take (by simp [named])).bind fun _ mid _ => finishes_sees (fun _ => ?_) ?_
      · refine ((on.arguments mid).uncounted (by omega)).bind fun args mid _ => ?_
        exact finishes_pure rfl
      · exact finishes_pure rfl
    case h_4 opens =>
      refine (finishes_take (by simp [opens])).bind fun _ mid _ => ?_
      refine ((on.expr true mid).uncounted (by omega)).bind fun inner mid _ => ?_
      exact (finishes_expectSign _).bind fun _ mid _ => finishes_pure rfl
    case h_5 => exact finishes_fail fun _ => .inl rfl

theorem finishes_arguments (on : Finishing steps more) (tape : Tape) :
    Finishes (8 * tape.length + 1 ≤ steps + 1) (atLeast 1) (arguments (steps + 1))
      (arguments (more + 1))
      tape := by
  simp only [arguments]
  refine (finishes_expectSign _).bind fun _ mid _ => ?_
  refine ((on.items .closeParen mid).weaken (by omega)).bind fun args mid _ => ?_
  exact (finishes_expectSign _).bind fun _ mid _ => finishes_pure rfl

theorem finishes_items (on : Finishing steps more) (close : Sign) (tape : Tape) :
    Finishes (8 * tape.length + 5 ≤ steps + 1) (atLeast 0) (items close (steps + 1))
      (items close (more + 1)) tape := by
  simp only [items]
  refine finishes_sees (fun _ => finishes_pure rfl) ?_
  refine ((on.expr true tape).weaken (by omega)).bind fun first mid _ => ?_
  refine ((on.moreItems mid).weaken (by omega)).bind fun rest mid _ => ?_
  exact finishes_pure rfl

theorem finishes_moreItems (on : Finishing steps more) (tape : Tape) :
    Finishes (8 * tape.length + 1 ≤ steps + 1) (atLeast 0) (moreItems (steps + 1))
      (moreItems (more + 1))
      tape := by
  simp only [moreItems]
  refine finishes_accept (by simp) (fun mid _ => ?_) (finishes_pure rfl)
  refine ((on.expr true mid).uncounted (by omega)).bind fun item mid _ => ?_
  refine ((on.moreItems mid).weaken (by omega)).bind fun rest mid _ => ?_
  exact finishes_pure rfl

theorem finishes_entries (on : Finishing steps more) (tape : Tape) :
    Finishes (8 * tape.length + 2 ≤ steps + 1) (atLeast 0) (entries (steps + 1))
      (entries (more + 1))
      tape := by
  simp only [entries]
  refine finishes_sees (fun _ => finishes_pure rfl) ?_
  exact (on.someEntries tape).uncounted (by omega)

theorem finishes_entryKey {enough : Prop} (tape : Tape) :
    Finishes enough (atLeast 1) someEntries.entryKey someEntries.entryKey tape := by
  simp only [someEntries.entryKey]
  refine finishes_kind ?_
  split
  case h_1 kind =>
    exact (finishes_take (by simp [kind])).bind fun token mid _ => finishes_pure rfl
  case h_2 kind =>
    exact (finishes_take (by simp [kind])).bind fun token mid _ => finishes_pure rfl
  case h_3 => exact finishes_fail fun _ => .inl rfl

theorem finishes_someEntries (on : Finishing steps more) (tape : Tape) :
    Finishes (8 * tape.length + 1 ≤ steps + 1) (atLeast 1) (someEntries (steps + 1))
      (someEntries (more + 1)) tape := by
  simp only [someEntries]
  refine (finishes_entryKey tape).bind fun key mid _ => ?_
  refine (finishes_expectSign _).bind fun _ mid _ => ?_
  refine ((on.expr false mid).uncounted (by omega)).bind fun value mid _ => ?_
  refine finishes_accept (by simp) (fun mid _ => ?_) (finishes_pure rfl)
  refine ((on.someEntries mid).uncounted (by omega)).bind fun rest mid _ => ?_
  exact finishes_pure rfl

theorem finishing : ∀ {steps more}, steps ≤ more → Finishing steps more
  | 0, _, _ =>
      { expr := fun _ _ => finishes_exhausted (by omega)
        operation := fun _ _ _ => finishes_exhausted (by omega)
        operators := fun _ _ _ _ => finishes_exhausted (by omega)
        unary := fun _ => finishes_exhausted (by omega)
        accesses := fun _ _ => finishes_exhausted (by omega)
        primary := fun _ => finishes_exhausted (by omega)
        arguments := fun _ => finishes_exhausted (by omega)
        items := fun _ _ => finishes_exhausted (by omega)
        moreItems := fun _ => finishes_exhausted (by omega)
        entries := fun _ => finishes_exhausted (by omega)
        someEntries := fun _ => finishes_exhausted (by omega) }
  | _ + 1, _ + 1, fewer =>
      have on := finishing (Nat.le_of_succ_le_succ fewer)
      { expr := finishes_expr on
        operation := finishes_operation on
        operators := finishes_operators on
        unary := finishes_unary on
        accesses := finishes_accesses on
        primary := finishes_primary on
        arguments := finishes_arguments on
        items := finishes_items on
        moreItems := finishes_moreItems on
        entries := finishes_entries on
        someEntries := finishes_someEntries on }

theorem finishes_wholeExpr (fewer : steps ≤ more) (tape : Tape) :
    Finishes (8 * tape.length + 4 ≤ steps) (atLeast 1) (expr true steps) (expr true more) tape :=
  (finishing fewer).expr true tape

theorem finishes_declaration (fewer : steps ≤ more) (tape : Tape) :
    Finishes (8 * tape.length ≤ steps) (atLeast 1) (declaration steps) (declaration more) tape := by
  simp only [declaration]
  refine (finishes_expectWord _).bind fun _ mid _ => finishes_expectName.bind fun name mid _ => ?_
  refine (finishes_expectSign _).bind fun _ mid _ => ?_
  refine ((finishes_wholeExpr fewer mid).uncounted (by omega)).bind fun value mid _ => ?_
  exact finishes_pure rfl

theorem finishes_loopStart (fewer : steps ≤ more) (tape : Tape) :
    Finishes (8 * tape.length + 4 ≤ steps) (atLeast 0) (loopStart steps) (loopStart more) tape := by
  simp only [loopStart]
  refine finishes_kind ?_
  split
  · exact finishes_pure rfl
  · refine ((finishes_declaration fewer tape).uncounted (by omega)).bind ?_
    exact fun _ mid _ => finishes_pure rfl
  · refine ((finishes_wholeExpr fewer tape).uncounted (by omega)).bind ?_
    exact fun e mid _ => finishes_pure rfl

theorem finishes_optionalExpr (close : Sign) (fewer : steps ≤ more) (tape : Tape) :
    Finishes (8 * tape.length + 4 ≤ steps) (atLeast 0) (optionalExpr close steps)
      (optionalExpr close more) tape := by
  simp only [optionalExpr]
  refine finishes_sees (fun _ => finishes_pure rfl) ?_
  refine ((finishes_wholeExpr fewer tape).uncounted (by omega)).bind fun e mid _ => ?_
  exact finishes_pure rfl

/-- The statement readers finish on every tape. -/
structure FinishingStmt (steps more : Nat) : Prop where
  statement (tape : Tape) :
    Finishes (8 * tape.length + 5 ≤ steps) (atLeast 1) (statement steps) (statement more) tape
  block (tape : Tape) : Finishes (8 * tape.length + 1 ≤ steps) (atLeast 1) (block steps)
      (block more) tape
  statements (tape : Tape) :
    Finishes (8 * tape.length + 6 ≤ steps) (atLeast 0) (statements steps) (statements more) tape

theorem finishes_statement (on : FinishingStmt steps more) (fewer : steps ≤ more) (tape : Tape) :
    Finishes (8 * tape.length + 5 ≤ steps + 1) (atLeast 1) (statement (steps + 1))
      (statement (more + 1))
      tape := by
  simp only [statement]
  refine finishes_current ?_
  split
  case h_1 =>
    refine ((finishes_declaration fewer tape).weaken (by omega)).bind ?_
    exact fun _ mid _ => finishes_pure rfl
  case h_2 returns =>
    refine (finishes_take (by simp [returns])).bind fun _ mid _ => ?_
    refine ((finishes_optionalExpr _ fewer mid).weaken (by omega)).bind ?_
    exact fun value mid _ => finishes_pure rfl
  case h_3 tests =>
    refine (finishes_take (by simp [tests])).bind fun _ mid _ => ?_
    refine (finishes_expectSign _).bind fun _ mid _ => ?_
    refine ((finishes_wholeExpr fewer mid).uncounted (by omega)).bind ?_
    refine fun condition mid _ => (finishes_expectSign _).bind fun _ mid _ => ?_
    refine ((on.block mid).uncounted (by omega)).bind fun yes mid _ => ?_
    refine finishes_accept (by simp) (fun mid _ => ?_) (finishes_pure rfl)
    refine ((on.block mid).uncounted (by omega)).bind fun no mid _ => ?_
    exact finishes_pure rfl
  case h_4 repeats =>
    refine (finishes_take (by simp [repeats])).bind fun _ mid _ => ?_
    refine (finishes_expectSign _).bind fun _ mid _ => ?_
    refine ((finishes_loopStart fewer mid).weaken (by omega)).bind ?_
    refine fun start mid _ => (finishes_expectSign _).bind fun _ mid _ => ?_
    refine ((finishes_optionalExpr _ fewer mid).weaken (by omega)).bind ?_
    refine fun condition mid _ => (finishes_expectSign _).bind fun _ mid _ => ?_
    refine ((finishes_optionalExpr _ fewer mid).weaken (by omega)).bind ?_
    refine fun step mid _ => (finishes_expectSign _).bind fun _ mid _ => ?_
    refine ((on.block mid).uncounted (by omega)).bind fun body mid _ => ?_
    exact finishes_pure rfl
  case h_5 =>
    refine ((on.block tape).weaken (by omega)).bind fun body mid _ => ?_
    exact finishes_pure rfl
  case h_6 =>
    refine ((finishes_wholeExpr fewer tape).weaken (by omega)).bind fun e mid _ => ?_
    exact finishes_pure rfl

theorem finishes_block (on : FinishingStmt steps more) (tape : Tape) :
    Finishes (8 * tape.length + 1 ≤ steps + 1) (atLeast 1) (block (steps + 1)) (block (more + 1))
      tape := by
  simp only [block]
  refine (finishes_expectSign _).bind fun _ mid _ => ?_
  refine ((on.statements mid).weaken (by omega)).bind fun body mid _ => ?_
  exact (finishes_expectSign _).bind fun _ mid _ => finishes_pure rfl

theorem finishes_statements (on : FinishingStmt steps more) (tape : Tape) :
    Finishes (8 * tape.length + 6 ≤ steps + 1) (atLeast 0) (statements (steps + 1))
      (statements (more + 1)) tape := by
  simp only [statements]
  refine finishes_sees (fun _ => finishes_pure rfl) ?_
  refine ((on.statement tape).weaken (by omega)).bind fun first mid _ => ?_
  refine ((on.statements mid).weaken (by omega)).bind fun rest mid _ => ?_
  exact finishes_pure rfl

theorem finishingStmt : ∀ {steps more}, steps ≤ more → FinishingStmt steps more
  | 0, _, _ =>
      { statement := fun _ => finishes_exhausted (by omega)
        block := fun _ => finishes_exhausted (by omega)
        statements := fun _ => finishes_exhausted (by omega) }
  | _ + 1, _ + 1, fewer =>
      have fewer := Nat.le_of_succ_le_succ fewer
      have on := finishingStmt fewer
      { statement := finishes_statement on fewer
        block := finishes_block on
        statements := finishes_statements on }

theorem finishes_moreNames (fewer : steps ≤ more) (tape : Tape) :
    Finishes (8 * tape.length + 1 ≤ steps) (atLeast 0) (moreNames steps) (moreNames more) tape := by
  induction steps generalizing more tape with
  | zero => exact finishes_exhausted (by omega)
  | succ steps ih =>
      obtain ⟨more, rfl⟩ := Nat.exists_eq_succ_of_ne_zero (Nat.ne_zero_of_lt fewer)
      have fewer := Nat.le_of_succ_le_succ fewer
      simp only [moreNames]
      refine finishes_accept (by simp) (fun mid _ => ?_) (finishes_pure rfl)
      refine finishes_expectName.bind fun name mid _ => ?_
      refine ((ih fewer mid).weaken (by omega)).bind fun rest mid _ => ?_
      exact finishes_pure rfl

theorem finishes_params (fewer : steps ≤ more) (tape : Tape) :
    Finishes (8 * tape.length ≤ steps) (atLeast 1) (params steps) (params more) tape := by
  simp only [params]
  refine (finishes_expectSign _).bind fun _ mid _ => finishes_sees (fun _ => ?_) ?_
  · simp only [pure_bind]
    exact (finishes_expectSign _).bind fun _ mid _ => finishes_pure rfl
  · refine finishes_expectName.bind fun first mid _ => ?_
    refine ((finishes_moreNames fewer mid).weaken (by omega)).bind fun rest mid _ => ?_
    simp only [pure_bind]
    exact (finishes_expectSign _).bind fun _ mid _ => finishes_pure rfl

theorem finishes_function (seen : FunctionTable) (fewer : steps ≤ more) (tape : Tape) :
    Finishes (8 * tape.length ≤ steps) (atLeast 1) (function seen steps) (function seen more)
      tape := by
  simp only [function]
  refine (finishes_expectWord _).bind fun _ mid _ => finishes_expectName.bind fun name mid _ => ?_
  split
  case isTrue => exact finishes_failAt (.inl rfl)
  case isFalse =>
    refine ((finishes_params fewer mid).uncounted (by omega)).bind fun params mid _ => ?_
    refine (((finishingStmt fewer).block mid).uncounted (by omega)).bind ?_
    exact fun body mid _ => finishes_pure rfl

theorem finishes_importName {enough : Prop} (name : Token) (tape : Tape) :
    Finishes enough (atLeast 0) (importName name) (importName name) tape := by
  unfold importName
  refine finishes_accept (by simp) (fun mid _ => ?_) (finishes_pure rfl)
  refine finishes_expectName.bind fun other mid _ => ?_
  split
  · exact finishes_failAt (.inl rfl)
  · exact finishes_pure rfl

theorem finishes_importDecl {enough : Prop} (seen : List Import) (tape : Tape) :
    Finishes enough (atLeast 1) (importDecl seen) (importDecl seen) tape := by
  simp only [importDecl]
  refine (finishes_expectWord _).bind fun _ mid _ => finishes_expectName.bind fun module mid _ => ?_
  refine finishes_sees (fun points => ?_) (finishes_fail fun _ => .inl rfl)
  refine (finishes_take (by simp [points])).bind fun _ mid _ => ?_
  refine finishes_expectName.bind fun name mid _ => ?_
  refine (finishes_importName name mid).bind fun newName mid _ => ?_
  split
  · exact finishes_failAt (.inl rfl)
  · exact finishes_pure rfl

theorem finishes_program (seen : Program) (fewer : steps ≤ more) (tape : Tape) :
    Finishes (8 * tape.length + 8 ≤ steps) (atLeast 0) (program seen steps) (program seen more)
      tape := by
  induction steps generalizing seen more tape with
  | zero => exact finishes_exhausted (by omega)
  | succ steps ih =>
      obtain ⟨more, rfl⟩ := Nat.exists_eq_succ_of_ne_zero (Nat.ne_zero_of_lt fewer)
      have fewer := Nat.le_of_succ_le_succ fewer
      simp only [program]
      refine finishes_kind ?_
      split
      case h_1 => exact finishes_pure rfl
      case h_2 =>
        refine (finishes_importDecl seen.imports tape).bind fun decl mid _ => ?_
        exact (ih _ fewer mid).weaken (by omega)
      case h_3 =>
        refine ((finishes_function seen.functions fewer tape).weaken (by omega)).bind ?_
        intro f mid _
        exact (ih _ fewer mid).weaken (by omega)
      case h_4 => exact finishes_fail fun _ => .inl rfl

end Parser

/-! ## Loops -/

namespace Reader

variable {α σ : Type}

/-- Rounds one after the other: each gives what the next one starts from, the last the value. -/
def loop (round : σ → Nat → Reader (σ ⊕ α)) (start : σ) : Nat → Reader α
  | 0 => exhausted
  | steps + 1 => do
      match ← round start steps with
      | .inl next => loop round next steps
      | .inr a => return a

/-- A round that another one follows has taken a token, one that is there. -/
def Productive (round : Reader (σ ⊕ α)) : Prop :=
  ∀ tape next rest, round tape = .ok (.inl next, rest) →
    ∃ tokens, tokens ≠ [] ∧ Run round tape tokens rest (.ok (.inl next))

/-- A reader that gives a value has taken a token, one that is there. -/
def Advances (x : Reader α) : Prop :=
  ∀ tape a rest, x tape = .ok (a, rest) → ∃ tokens, tokens ≠ [] ∧ Run x tape tokens rest (.ok a)

theorem Run.eq_ok {x : Reader α} {tape rest rest' : Tape} {tokens : List Token} {a : α}
    {outcome : Except Stop α} (run : Run x tape tokens rest outcome)
    (ran : x tape = .ok (a, rest')) : outcome = .ok a ∧ rest = rest' := by
  rw [run.eq] at ran
  cases outcome with
  | error stop => cases ran
  | ok b =>
      cases ran
      exact ⟨rfl, rfl⟩

theorem advances_of_finishes {enough : Tape → Prop} {x y : Reader α}
    (finishes : ∀ tape, Finishes (enough tape) (atLeast 1) x y tape) : x.Advances := by
  intro tape a rest ran
  obtain ⟨tokens, _, _, run, -, -, taken⟩ := finishes tape
  obtain ⟨rfl, rfl⟩ := run.eq_ok ran
  exact ⟨tokens, List.length_pos_iff.1 (taken a rfl), run⟩

end Reader

namespace Parser

/-- One operator and its right operand. -/
def operatorRound (greater : Bool) (level : Nat) (left : Expr) (steps : Nat) :
    Reader (Expr ⊕ Expr) := do
  match BinaryOp.atLevel? greater level (← kind) with
  | none => return .inr left
  | some op =>
      let sign ← take
      let right ← operation greater (op.level + 1) steps
      return .inl (.binary sign.position op left right)

/-- One index, field or method. -/
def accessRound (target : Expr) (steps : Nat) : Reader (Expr ⊕ Expr) := do
  match ← kind with
  | .sign .openBracket =>
      let bracket ← take
      let index ← expr true steps
      let _ ← expectSign .closeBracket
      return .inl (.index bracket.position target index)
  | .sign .dot =>
      let _ ← take
      let name ← expectName
      if ← sees .openParen then
        let args ← arguments steps
        return .inl (.method name.position target name.text args)
      else return .inl (.field name.position target name.text)
  | _ => return .inr target

/-- One more expression behind a comma. -/
def itemRound (before : List Expr) (steps : Nat) : Reader (List Expr ⊕ List Expr) := do
  if ← accept (.sign .comma) then
    let item ← expr true steps
    return .inl (before ++ [item])
  else return .inr before

/-- One entry, and another one if a comma follows. -/
def entryRound (before : List (EntryKey × Expr)) (steps : Nat) :
    Reader (List (EntryKey × Expr) ⊕ List (EntryKey × Expr)) := do
  let key ← someEntries.entryKey
  let _ ← expectSign .colon
  let value ← expr false steps
  if ← accept (.sign .comma) then return .inl (before ++ [(key, value)])
  else return .inr (before ++ [(key, value)])

/-- One statement, unless the block closes. -/
def statementRound (before : List Stmt) (steps : Nat) : Reader (List Stmt ⊕ List Stmt) := do
  if ← sees .closeBrace then return .inr before
  else
    let first ← statement steps
    return .inl (before ++ [first])

/-- One more parameter behind a comma. -/
def nameRound (before : List String) (_ : Nat) : Reader (List String ⊕ List String) := do
  if ← accept (.sign .comma) then
    let name ← expectName
    return .inl (before ++ [name.text])
  else return .inr before

/-- One import or function, unless the text ends. -/
def programRound (seen : Program) (steps : Nat) : Reader (Program ⊕ Program) := do
  match ← kind with
  | .endOfInput => return .inr seen
  | .keyword .import =>
      let decl ← importDecl seen.imports
      return .inl { seen with imports := seen.imports ++ [decl] }
  | .keyword .function =>
      let f ← function seen.functions steps
      return .inl { seen with functions := seen.functions.add f.name f }
  | _ => fail .expectedItem

section

variable {α β : Type}

theorem fail_bind (cause : Token.Kind → Fault) (f : α → Reader β) :
    (fail cause >>= f) = fail cause :=
  rfl

/-- Two readers that begin alike are the same if they go on alike. -/
theorem bind_congr_right {x : Reader α} {f g : α → Reader β} (same : ∀ a, f a = g a) :
    x >>= f = x >>= g :=
  congrArg (x >>= ·) (funext same)

end

theorem operators_eq_loop (greater : Bool) (level : Nat) (left : Expr) (steps : Nat) :
    operators greater level left steps = loop (operatorRound greater level) left steps := by
  induction steps generalizing left with
  | zero => rfl
  | succ steps ih =>
      simp only [operators, loop, operatorRound, bind_assoc]
      refine bind_congr_right fun kind => ?_
      cases BinaryOp.atLevel? greater level kind <;> simp [ih]

theorem accesses_eq_loop (target : Expr) (steps : Nat) :
    accesses target steps = loop accessRound target steps := by
  induction steps generalizing target with
  | zero => rfl
  | succ steps ih =>
      simp only [accesses, loop, accessRound, bind_assoc]
      refine bind_congr_right fun kind => ?_
      split
      · simp [ih]
      · simp only [bind_assoc]
        refine bind_congr_right fun _ => bind_congr_right fun name => ?_
        refine bind_congr_right fun seen => ?_
        cases seen <;> simp [ih]
      · simp

/-- The expressions behind commas, behind those that are there already. -/
theorem moreItems_eq_loop (before : List Expr) (steps : Nat) :
    (before ++ ·) <$> moreItems steps = loop itemRound before steps := by
  induction steps generalizing before with
  | zero => rfl
  | succ steps ih =>
      simp only [moreItems, loop, itemRound, map_bind, bind_assoc]
      refine bind_congr_right fun accepted => ?_
      cases accepted
      · simp
      · simp [← ih]

theorem someEntries_eq_loop (before : List (EntryKey × Expr)) (steps : Nat) :
    (before ++ ·) <$> someEntries steps = loop entryRound before steps := by
  induction steps generalizing before with
  | zero => rfl
  | succ steps ih =>
      simp only [someEntries, loop, entryRound, map_bind, bind_assoc]
      refine bind_congr_right fun key => bind_congr_right fun _ => bind_congr_right fun value => ?_
      refine bind_congr_right fun accepted => ?_
      cases accepted
      · simp
      · simp [← ih]

theorem statements_eq_loop (before : List Stmt) (steps : Nat) :
    (before ++ ·) <$> statements steps = loop statementRound before steps := by
  induction steps generalizing before with
  | zero => rfl
  | succ steps ih =>
      simp only [statements, loop, statementRound, map_bind, bind_assoc]
      refine bind_congr_right fun closes => ?_
      cases closes
      · simp [← ih]
      · simp

theorem moreNames_eq_loop (before : List String) (steps : Nat) :
    (before ++ ·) <$> moreNames steps = loop nameRound before steps := by
  induction steps generalizing before with
  | zero => rfl
  | succ steps ih =>
      simp only [moreNames, loop, nameRound, map_bind, bind_assoc]
      refine bind_congr_right fun accepted => ?_
      cases accepted
      · simp
      · simp [← ih]

theorem program_eq_loop (seen : Program) (steps : Nat) :
    program seen steps = loop programRound seen steps := by
  induction steps generalizing seen with
  | zero => rfl
  | succ steps ih =>
      simp only [program, loop, programRound, bind_assoc]
      refine bind_congr_right fun kind => ?_
      split
      · simp
      · simp [ih]
      · simp [ih]
      · simp [fail_bind]

/-- What a round needs, a token if another one follows. -/
def going {σ α : Type} : σ ⊕ α → Nat
  | .inl _ => 1
  | .inr _ => 0

theorem productive_of_finishes {σ α : Type} {round : Reader (σ ⊕ α)}
    (finishes : ∀ tape, Finishes False going round round tape) : Productive round := by
  intro tape next rest ran
  obtain ⟨tokens, _, _, run, -, -, taken⟩ := finishes tape
  obtain ⟨rfl, rfl⟩ := run.eq_ok ran
  exact ⟨tokens, List.length_pos_iff.1 (taken _ rfl), run⟩

theorem productive_operatorRound (greater : Bool) (level : Nat) (left : Expr) (steps : Nat) :
    Productive (operatorRound greater level left steps) := by
  refine productive_of_finishes fun tape => finishes_kind ?_
  split
  case h_1 => exact finishes_pure rfl
  case h_2 op found =>
    have kind := (BinaryOp.sign_of_ofKind? (BinaryOp.atLevel?_eq_some found).1).1
    refine (finishes_take (by simp [kind])).bind fun sign mid _ => ?_
    have right := (finishing (Nat.le_refl steps)).operation greater (op.level + 1) mid
    exact (right.uncounted False.elim).bind fun _ _ _ => finishes_pure rfl

theorem productive_accessRound (target : Expr) (steps : Nat) :
    Productive (accessRound target steps) := by
  have on := finishing (Nat.le_refl steps)
  refine productive_of_finishes fun tape => finishes_kind ?_
  split
  case h_1 opens =>
    refine (finishes_take (by simp [opens])).bind fun bracket mid _ => ?_
    refine ((on.expr true mid).uncounted False.elim).bind fun index mid _ => ?_
    exact (finishes_expectSign _).bind fun _ _ _ => finishes_pure rfl
  case h_2 points =>
    refine (finishes_take (by simp [points])).bind fun _ mid _ => ?_
    refine finishes_expectName.bind fun name mid _ => finishes_sees (fun _ => ?_) ?_
    · refine ((on.arguments mid).uncounted False.elim).bind fun args mid _ => ?_
      exact finishes_pure rfl
    · exact finishes_pure rfl
  case h_3 => exact finishes_pure rfl

theorem productive_itemRound (before : List Expr) (steps : Nat) :
    Productive (itemRound before steps) := by
  refine productive_of_finishes fun tape => ?_
  refine finishes_accept (by simp) (fun mid _ => ?_) (finishes_pure rfl)
  have item := finishes_wholeExpr (Nat.le_refl steps) mid
  exact (item.uncounted False.elim).bind fun _ _ _ => finishes_pure rfl

theorem productive_entryRound (before : List (EntryKey × Expr)) (steps : Nat) :
    Productive (entryRound before steps) := by
  have on := finishing (Nat.le_refl steps)
  refine productive_of_finishes fun tape => (finishes_entryKey tape).bind fun key mid _ => ?_
  refine (finishes_expectSign _).bind fun _ mid _ => ?_
  refine ((on.expr false mid).uncounted False.elim).bind fun value mid _ => ?_
  exact finishes_accept (by simp) (fun mid _ => finishes_pure rfl) (finishes_pure rfl)

theorem productive_statementRound (before : List Stmt) (steps : Nat) :
    Productive (statementRound before steps) := by
  refine productive_of_finishes fun tape => finishes_sees (fun _ => finishes_pure rfl) ?_
  have first := (finishingStmt (Nat.le_refl steps)).statement tape
  exact (first.weaken False.elim).bind fun _ _ _ => finishes_pure rfl

theorem productive_nameRound (before : List String) (steps : Nat) :
    Productive (nameRound before steps) := by
  refine productive_of_finishes fun tape => ?_
  refine finishes_accept (by simp) (fun mid _ => ?_) (finishes_pure rfl)
  exact finishes_expectName.bind fun _ _ _ => finishes_pure rfl

theorem productive_programRound (seen : Program) (steps : Nat) :
    Productive (programRound seen steps) := by
  refine productive_of_finishes fun tape => finishes_kind ?_
  split
  case h_1 => exact finishes_pure rfl
  case h_2 =>
    exact (finishes_importDecl seen.imports tape).bind fun _ _ _ => finishes_pure rfl
  case h_3 =>
    have f := finishes_function seen.functions (Nat.le_refl steps) tape
    exact (f.weaken False.elim).bind fun _ _ _ => finishes_pure rfl
  case h_4 => exact finishes_fail fun _ => .inl rfl

/-- The readers of expressions, statements, blocks and items take a token before they give a
value. -/
structure Advancing (steps : Nat) : Prop where
  expr (greater : Bool) : (expr greater steps).Advances
  operation (greater : Bool) (level : Nat) : (operation greater level steps).Advances
  unary : (unary steps).Advances
  primary : (primary steps).Advances
  arguments : (arguments steps).Advances
  declaration : (declaration steps).Advances
  statement : (statement steps).Advances
  block : (block steps).Advances
  params : (params steps).Advances
  function (seen : FunctionTable) : (function seen steps).Advances
  importDecl (seen : List Import) : (importDecl seen).Advances

theorem advancing (steps : Nat) : Advancing steps :=
  have same := Nat.le_refl steps
  { expr := fun greater => advances_of_finishes ((finishing same).expr greater)
    operation := fun greater level =>
      advances_of_finishes ((finishing same).operation greater level)
    unary := advances_of_finishes (finishing same).unary
    primary := advances_of_finishes (finishing same).primary
    arguments := advances_of_finishes (finishing same).arguments
    declaration := advances_of_finishes (finishes_declaration same)
    statement := advances_of_finishes (finishingStmt same).statement
    block := advances_of_finishes (finishingStmt same).block
    params := advances_of_finishes (finishes_params same)
    function := fun seen => advances_of_finishes (finishes_function seen same)
    importDecl := fun seen =>
      @advances_of_finishes _ (fun _ => True) _ _ (finishes_importDecl seen) }

/-- The loops of the parser are rounds one after the other, each of which takes a token unless it is
the last. -/
structure Looping (steps : Nat) : Prop where
  operators (greater : Bool) (level : Nat) (left : Expr) :
    operators greater level left steps = loop (operatorRound greater level) left steps ∧
      Productive (operatorRound greater level left steps)
  accesses (target : Expr) : accesses target steps = loop accessRound target steps ∧
    Productive (accessRound target steps)
  moreItems (before : List Expr) :
    (before ++ ·) <$> moreItems steps = loop itemRound before steps ∧
      Productive (itemRound before steps)
  someEntries (before : List (EntryKey × Expr)) :
    (before ++ ·) <$> someEntries steps = loop entryRound before steps ∧
      Productive (entryRound before steps)
  statements (before : List Stmt) :
    (before ++ ·) <$> statements steps = loop statementRound before steps ∧
      Productive (statementRound before steps)
  moreNames (before : List String) :
    (before ++ ·) <$> moreNames steps = loop nameRound before steps ∧
      Productive (nameRound before steps)
  program (seen : Program) : program seen steps = loop programRound seen steps ∧
    Productive (programRound seen steps)

theorem looping (steps : Nat) : Looping steps where
  operators greater level left :=
    ⟨operators_eq_loop greater level left steps, productive_operatorRound greater level left steps⟩
  accesses target := ⟨accesses_eq_loop target steps, productive_accessRound target steps⟩
  moreItems before := ⟨moreItems_eq_loop before steps, productive_itemRound before steps⟩
  someEntries before := ⟨someEntries_eq_loop before steps, productive_entryRound before steps⟩
  statements before := ⟨statements_eq_loop before steps, productive_statementRound before steps⟩
  moreNames before := ⟨moreNames_eq_loop before steps, productive_nameRound before steps⟩
  program seen := ⟨program_eq_loop seen steps, productive_programRound seen steps⟩

end Parser

namespace Program

/-- Reading a program: a fault in front of the first token ends it at once; otherwise it is a run
that does not end for want of steps. -/
theorem ofTape_run (tape : Tape) :
    (∃ cause position, tape = .fault cause position ∧
      ofTape tape = .error (.failed (.ofFault cause position))) ∨
    (tape.Settled ∧ ∃ tokens rest outcome,
      Run (Parser.program .empty (8 * tape.length + 8)) tape tokens rest outcome ∧
        outcome ≠ .error .exhausted ∧ ofTape tape = outcome) := by
  cases settling : tape.settle with
  | error stop =>
      cases tape with
      | fault cause position => exact .inl ⟨cause, position, rfl, rfl⟩
      | _ => cases settling
  | ok settled =>
      obtain ⟨rfl, whole⟩ := Tape.settle_ok settling
      obtain ⟨tokens, rest, outcome, run, ends, -⟩ :=
        Parser.finishes_program .empty (Nat.le_refl (8 * settled.length + 8)) settled
      refine .inr ⟨whole, tokens, rest, outcome, run, ends (Nat.le_refl _), ?_⟩
      rw [ofTape, settling]
      change (Parser.program _ _ settled >>= _) = _
      rw [run.eq]
      cases outcome <;> rfl

theorem ofTape_ne_exhausted (tape : Tape) : ofTape tape ≠ .error .exhausted := by
  obtain ⟨_, _, -, failed⟩ | ⟨-, _, _, _, -, ends, same⟩ := ofTape_run tape
  · rw [failed]
    simp
  · rwa [same]

/-- **Reading a program ends.**  Every source text gives a program or a failure.  On every tape the
reader of programs, with eight steps for each token and eight more, goes through a run that does not
end for want of steps and takes no more tokens than there are, never the one for the end.  With any
number of steps the readers of expressions, statements, blocks and items take a token before they
give a value, and a round of a loop does unless it is the last. -/
theorem reading_ends (source : String) :
    ((∃ p, ofText source = .ok p) ∨ ∃ failure, ofText source = .error (.failed failure)) ∧
    (∀ seen steps tape, 8 * tape.length + 8 ≤ steps →
      ∃ tokens rest outcome, Run (Parser.program seen steps) tape tokens rest outcome ∧
        Parser.program seen steps tape = outcome.map (·, rest) ∧ outcome ≠ .error .exhausted ∧
        tape = Tape.prepend tokens rest ∧ tokens.length + rest.length = tape.length) ∧
    ∀ steps, Parser.Advancing steps ∧ Parser.Looping steps := by
  refine ⟨?_, fun seen steps tape enough => ?_, fun steps => ⟨Parser.advancing steps,
    Parser.looping steps⟩⟩
  · cases parsed : ofText source with
    | ok p => exact .inl ⟨p, rfl⟩
    | error stop =>
        cases stop with
        | failed failure => exact .inr ⟨failure, rfl⟩
        | exhausted => exact absurd parsed (ofTape_ne_exhausted _)
  · obtain ⟨tokens, rest, outcome, run, ends, -⟩ :=
      Parser.finishes_program seen (Nat.le_refl steps) tape
    exact ⟨tokens, rest, outcome, run, run.eq, ends enough, run.whole, run.length_eq⟩

/-- A text that breaks off inside a block: all of its five tokens are taken, and then there is
nothing left to take. -/
theorem reading_ends_inside_block :
    let source := "fun f() \x7b"
    let tape := Tape.ofText source
    8 * tape.length + 8 ≤ 48 ∧ tape.length = 5 ∧
    (∃ failure, ofText source = .error (.failed failure)) ∧
    ∃ tokens rest outcome, Run (Parser.program .empty 48) tape tokens rest outcome ∧
      outcome ≠ .error .exhausted ∧ tokens.length + rest.length = 5 := by
  intro source tape
  have counted : tape.length = 5 := by
    change (Tape.ofText source).length = 5
    cbv
  have enough : 8 * tape.length + 8 ≤ 48 := by omega
  obtain ⟨ended, runs, -⟩ := reading_ends source
  have unread (p : Program) : ofText source ≠ .ok p := by
    have failed : (ofText source).toOption = none := by cbv
    intro parsed
    rw [parsed] at failed
    cases failed
  obtain ⟨tokens, rest, outcome, run, -, ends, -, whole⟩ := runs .empty 48 tape enough
  refine ⟨enough, counted, ?_, tokens, rest, outcome, run, ends, by rw [whole, counted]⟩
  exact ended.resolve_left (not_exists.2 unread)

end Program

end Script
