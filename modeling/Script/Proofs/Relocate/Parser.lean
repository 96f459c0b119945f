/-
# Script.Proofs.Relocate.Parser -- reading does not depend on places

The parser looks at the kinds and the texts of tokens and copies their places into the
tree or the failure it ends with.  So a tape with other places is read in the same way
(`relocates_program`): each reader relocates, which is to say that it does to the
relocated tape what it does to the tape, and ends with the relocated result.
-/
import Script.Proofs.Relocate.Trees
import Script.Syntax.Parser

namespace Script

set_option autoImplicit false

variable {move : Position → Position} {α β α' β' : Type}

namespace Tape

theorem settle_relocate (tape : Tape) :
    (tape.relocate move).settle =
      (tape.settle.map (relocate move)).mapError (Stop.relocate move) := by
  cases tape <;> rfl

end Tape

namespace Reader

/-- The end of a run with other places, in its value too. -/
def relocated (move : Position → Position) (change : α → α') :
    Except Stop (α × Tape) → Except Stop (α' × Tape)
  | .ok (a, rest) => .ok (change a, rest.relocate move)
  | .error stop => .error (stop.relocate move)

/-- On relocated tapes the second reader does what the first one does, with a changed value. -/
def Relocates (move : Position → Position) (change : α → α') (x : Reader α) (y : Reader α') :
    Prop :=
  ∀ tape, y (tape.relocate move) = relocated move change (x tape)

theorem relocates_pure (change : α → α') (a : α) :
    Relocates move change (pure a) (pure (change a)) :=
  fun _ => rfl

theorem Relocates.bind {change : α → α'} {changeLater : β → β'} {x : Reader α} {y : Reader α'}
    {later : α → Reader β} {laterHere : α' → Reader β'} (first : Relocates move change x y)
    (second : ∀ a, Relocates move changeLater (later a) (laterHere (change a))) :
    Relocates move changeLater (x >>= later) (y >>= laterHere) := by
  intro tape
  change (y (tape.relocate move) >>= fun p => laterHere p.1 p.2) =
    relocated move changeLater (x tape >>= fun p => later p.1 p.2)
  rw [first tape]
  cases x tape with
  | error stop => rfl
  | ok p => exact second p.1 p.2

theorem relocates_exhausted (change : α → α') :
    Relocates move change exhausted exhausted :=
  fun _ => rfl

theorem relocates_failAt (change : α → α') (position : Position) (cause : Fault) :
    Relocates move change (failAt position cause) (failAt (move position) cause) :=
  fun _ => rfl

theorem relocates_fail (change : α → α') (cause : Token.Kind → Fault) :
    Relocates move change (fail cause) (fail cause) := by
  intro tape
  cases tape <;> rfl

theorem relocates_current : Relocates move (Token.relocate move) current current := by
  intro tape
  cases tape <;> rfl

theorem relocates_kind : Relocates move id kind kind := by
  intro tape
  cases tape <;> rfl

theorem relocates_sees (sign : Sign) : Relocates move id (sees sign) (sees sign) := by
  intro tape
  cases tape <;> rfl

theorem relocates_take : Relocates move (Token.relocate move) take take := by
  intro tape
  cases tape with
  | next token rest => cases rest <;> rfl
  | _ => rfl

theorem relocates_expect (wanted : Token.Kind) :
    Relocates move (Token.relocate move) (expect wanted) (expect wanted) := by
  refine relocates_kind.bind fun kind => ?_
  simp only [id]
  split
  · exact relocates_take
  · exact relocates_fail _ _

theorem relocates_expectSign (sign : Sign) :
    Relocates move (Token.relocate move) (expectSign sign) (expectSign sign) :=
  relocates_expect _

theorem relocates_expectWord (word : Keyword) :
    Relocates move (Token.relocate move) (expectWord word) (expectWord word) :=
  relocates_expect _

theorem relocates_expectName : Relocates move (Token.relocate move) expectName expectName :=
  relocates_expect _

theorem relocates_accept (wanted : Token.Kind) :
    Relocates move id (accept wanted) (accept wanted) := by
  refine relocates_kind.bind fun kind => ?_
  simp only [id]
  split
  · exact relocates_take.bind fun _ => relocates_pure id true
  · exact relocates_pure id false

end Reader

namespace Parser

open Reader

/-- The expression readers relocate within a number of steps. -/
structure Relocating (move : Position → Position) (steps : Nat) : Prop where
  expr (greater : Bool) :
    Relocates move (Expr.relocate move) (expr greater steps) (expr greater steps)
  operation (greater : Bool) (level : Nat) :
    Relocates move (Expr.relocate move) (operation greater level steps)
      (operation greater level steps)
  operators (greater : Bool) (level : Nat) (left : Expr) :
    Relocates move (Expr.relocate move) (operators greater level left steps)
      (operators greater level (left.relocate move) steps)
  unary : Relocates move (Expr.relocate move) (unary steps) (unary steps)
  accesses (target : Expr) :
    Relocates move (Expr.relocate move) (accesses target steps)
      (accesses (target.relocate move) steps)
  primary : Relocates move (Expr.relocate move) (primary steps) (primary steps)
  arguments : Relocates move (Expr.relocateItems move) (arguments steps) (arguments steps)
  items (close : Sign) :
    Relocates move (Expr.relocateItems move) (items close steps) (items close steps)
  moreItems : Relocates move (Expr.relocateItems move) (moreItems steps) (moreItems steps)
  entries : Relocates move (Expr.relocateEntries move) (entries steps) (entries steps)
  someEntries : Relocates move (Expr.relocateEntries move) (someEntries steps) (someEntries steps)

theorem literal?_relocate (token : Token) :
    literal? (token.relocate move) = (literal? token).map (Expr.relocate move) := by
  obtain ⟨kind, text, position⟩ := token
  simp only [literal?, Token.relocate]
  split <;> rfl

theorem relocates_assignment (target value : Expr) (position : Position) :
    Relocates move (Expr.relocate move) (assignment target value position)
      (assignment (target.relocate move) (value.relocate move) (move position)) := by
  intro tape
  cases target <;> rfl

variable {steps : Nat}

theorem relocates_expr (moving : Relocating move steps) (greater : Bool) :
    Relocates move (Expr.relocate move) (expr greater (steps + 1)) (expr greater (steps + 1)) := by
  simp only [expr]
  refine (moving.operation greater 1).bind fun target => ?_
  refine (relocates_sees .assign).bind fun seen => ?_
  simp only [id]
  split
  · refine relocates_take.bind fun sign => (moving.expr greater).bind fun value => ?_
    exact relocates_assignment target value sign.position
  · exact relocates_pure _ target

theorem relocates_operation (moving : Relocating move steps) (greater : Bool) (level : Nat) :
    Relocates move (Expr.relocate move) (operation greater level (steps + 1))
      (operation greater level (steps + 1)) := by
  simp only [operation]
  exact moving.unary.bind fun left => moving.operators greater level left

theorem relocates_operators (moving : Relocating move steps) (greater : Bool) (level : Nat)
    (left : Expr) :
    Relocates move (Expr.relocate move) (operators greater level left (steps + 1))
      (operators greater level (left.relocate move) (steps + 1)) := by
  simp only [operators]
  refine relocates_kind.bind fun kind => ?_
  simp only [id]
  split
  · exact relocates_pure _ left
  · rename_i op _
    refine relocates_take.bind fun sign => (moving.operation greater (op.level + 1)).bind ?_
    exact fun right => moving.operators greater level (.binary sign.position op left right)

theorem relocates_unary (moving : Relocating move steps) :
    Relocates move (Expr.relocate move) (unary (steps + 1)) (unary (steps + 1)) := by
  simp only [unary]
  refine relocates_kind.bind fun kind => ?_
  simp only [id]
  split
  · rename_i op _
    refine relocates_take.bind fun sign => moving.unary.bind fun operand => ?_
    exact relocates_pure _ (Expr.unary sign.position op operand)
  · exact moving.primary.bind fun target => moving.accesses target

theorem relocates_accesses (moving : Relocating move steps) (target : Expr) :
    Relocates move (Expr.relocate move) (accesses target (steps + 1))
      (accesses (target.relocate move) (steps + 1)) := by
  simp only [accesses]
  refine relocates_kind.bind fun kind => ?_
  simp only [id]
  split
  case h_1 =>
    refine relocates_take.bind fun bracket => (moving.expr true).bind fun index => ?_
    refine (relocates_expectSign _).bind fun _ => ?_
    exact moving.accesses (.index bracket.position target index)
  case h_2 =>
    refine relocates_take.bind fun _ => relocates_expectName.bind fun name => ?_
    refine (relocates_sees .openParen).bind fun seen => ?_
    simp only [id]
    split
    · refine moving.arguments.bind fun args => ?_
      exact moving.accesses (.method name.position target name.text args)
    · exact moving.accesses (.field name.position target name.text)
  case h_3 => exact relocates_pure _ target

theorem relocates_primary (moving : Relocating move steps) :
    Relocates move (Expr.relocate move) (primary (steps + 1)) (primary (steps + 1)) := by
  simp only [primary]
  refine relocates_current.bind fun token => ?_
  rw [literal?_relocate]
  cases literal? token with
  | some e => exact relocates_take.bind fun _ => relocates_pure _ e
  | none =>
      simp only [Option.map_none, Token.relocate]
      split
      case h_1 =>
        refine relocates_take.bind fun _ => (moving.items _).bind fun items => ?_
        refine (relocates_expectSign _).bind fun _ => ?_
        exact relocates_pure _ (Expr.list token.position items)
      case h_2 =>
        refine relocates_take.bind fun _ => moving.entries.bind fun entries => ?_
        refine (relocates_expectSign _).bind fun _ => ?_
        exact relocates_pure _ (Expr.dict token.position entries)
      case h_3 =>
        refine relocates_take.bind fun _ => (relocates_sees .openParen).bind fun seen => ?_
        simp only [id]
        split
        · refine moving.arguments.bind fun args => ?_
          exact relocates_pure _ (Expr.call token.position token.text args)
        · exact relocates_pure _ (Expr.name token.position token.text)
      case h_4 =>
        refine relocates_take.bind fun _ => (moving.expr true).bind fun inner => ?_
        exact (relocates_expectSign _).bind fun _ => relocates_pure _ inner
      case h_5 => exact relocates_fail _ _

theorem relocates_arguments (moving : Relocating move steps) :
    Relocates move (Expr.relocateItems move) (arguments (steps + 1)) (arguments (steps + 1)) := by
  simp only [arguments]
  refine (relocates_expectSign _).bind fun _ => (moving.items _).bind fun args => ?_
  exact (relocates_expectSign _).bind fun _ => relocates_pure _ args

theorem relocates_items (moving : Relocating move steps) (close : Sign) :
    Relocates move (Expr.relocateItems move) (items close (steps + 1))
      (items close (steps + 1)) := by
  simp only [items]
  refine (relocates_sees close).bind fun seen => ?_
  simp only [id]
  split
  · exact relocates_pure _ []
  · refine (moving.expr true).bind fun first => moving.moreItems.bind fun rest => ?_
    exact relocates_pure _ (first :: rest)

theorem relocates_moreItems (moving : Relocating move steps) :
    Relocates move (Expr.relocateItems move) (moreItems (steps + 1)) (moreItems (steps + 1)) := by
  simp only [moreItems]
  refine (relocates_accept _).bind fun accepted => ?_
  simp only [id]
  split
  · refine (moving.expr true).bind fun item => moving.moreItems.bind fun rest => ?_
    exact relocates_pure _ (item :: rest)
  · exact relocates_pure _ []

theorem relocates_entries (moving : Relocating move steps) :
    Relocates move (Expr.relocateEntries move) (entries (steps + 1)) (entries (steps + 1)) := by
  simp only [entries]
  refine (relocates_sees .greater).bind fun seen => ?_
  simp only [id]
  split
  · exact relocates_pure _ []
  · exact moving.someEntries

theorem relocates_entryKey : Relocates move id someEntries.entryKey someEntries.entryKey := by
  simp only [someEntries.entryKey]
  refine relocates_kind.bind fun kind => ?_
  simp only [id]
  split
  · exact relocates_take.bind fun token => relocates_pure id (EntryKey.literal token.text)
  · exact relocates_take.bind fun token => relocates_pure id (EntryKey.name token.text)
  · exact relocates_fail _ _

theorem relocates_someEntries (moving : Relocating move steps) :
    Relocates move (Expr.relocateEntries move) (someEntries (steps + 1))
      (someEntries (steps + 1)) := by
  simp only [someEntries]
  refine relocates_entryKey.bind fun key => (relocates_expectSign _).bind fun _ => ?_
  refine (moving.expr false).bind fun value => (relocates_accept _).bind fun accepted => ?_
  simp only [id]
  split
  · exact moving.someEntries.bind fun rest => relocates_pure _ ((key, value) :: rest)
  · exact relocates_pure _ [(key, value)]

theorem relocating (move : Position → Position) : ∀ steps, Relocating move steps
  | 0 =>
      { expr := fun _ => relocates_exhausted _
        operation := fun _ _ => relocates_exhausted _
        operators := fun _ _ _ => relocates_exhausted _
        unary := relocates_exhausted _
        accesses := fun _ => relocates_exhausted _
        primary := relocates_exhausted _
        arguments := relocates_exhausted _
        items := fun _ => relocates_exhausted _
        moreItems := relocates_exhausted _
        entries := relocates_exhausted _
        someEntries := relocates_exhausted _ }
  | steps + 1 =>
      have moving := relocating move steps
      { expr := relocates_expr moving
        operation := relocates_operation moving
        operators := relocates_operators moving
        unary := relocates_unary moving
        accesses := relocates_accesses moving
        primary := relocates_primary moving
        arguments := relocates_arguments moving
        items := relocates_items moving
        moreItems := relocates_moreItems moving
        entries := relocates_entries moving
        someEntries := relocates_someEntries moving }

theorem relocates_wholeExpr (steps : Nat) :
    Relocates move (Expr.relocate move) (expr true steps) (expr true steps) :=
  (relocating move steps).expr true

theorem relocates_declaration (steps : Nat) :
    Relocates move (fun (p, name, value) => (move p, name, value.relocate move))
      (declaration steps) (declaration steps) := by
  simp only [declaration]
  refine (relocates_expectWord _).bind fun _ => relocates_expectName.bind fun name => ?_
  refine (relocates_expectSign _).bind fun _ => (relocates_wholeExpr steps).bind fun value => ?_
  exact fun _ => rfl

theorem relocates_loopStart (steps : Nat) :
    Relocates move (LoopStart.relocate move) (loopStart steps) (loopStart steps) := by
  simp only [loopStart]
  refine relocates_kind.bind fun kind => ?_
  simp only [id]
  split
  · exact relocates_pure _ LoopStart.nothing
  · refine (relocates_declaration steps).bind fun declared => ?_
    obtain ⟨p, name, value⟩ := declared
    exact relocates_pure _ (LoopStart.declare p name value)
  · exact (relocates_wholeExpr steps).bind fun e => relocates_pure _ (LoopStart.expr e)

theorem relocates_optionalExpr (close : Sign) (steps : Nat) :
    Relocates move (Option.map (Expr.relocate move)) (optionalExpr close steps)
      (optionalExpr close steps) := by
  simp only [optionalExpr]
  refine (relocates_sees close).bind fun seen => ?_
  simp only [id]
  split
  · exact relocates_pure _ none
  · exact (relocates_wholeExpr steps).bind fun e => relocates_pure _ (some e)

/-- The statement readers relocate within a number of steps. -/
structure RelocatingStmt (move : Position → Position) (steps : Nat) : Prop where
  statement : Relocates move (Stmt.relocate move) (statement steps) (statement steps)
  block : Relocates move (Stmt.relocateBlock move) (block steps) (block steps)
  statements : Relocates move (Stmt.relocateBlock move) (statements steps) (statements steps)

theorem relocates_statement (moving : RelocatingStmt move steps) :
    Relocates move (Stmt.relocate move) (statement (steps + 1)) (statement (steps + 1)) := by
  simp only [statement]
  refine relocates_current.bind fun token => ?_
  simp only [Token.relocate]
  split
  case h_1 =>
    refine (relocates_declaration steps).bind fun declared => ?_
    obtain ⟨p, name, value⟩ := declared
    exact relocates_pure _ (Stmt.declare p name value)
  case h_2 =>
    refine relocates_take.bind fun _ => (relocates_optionalExpr _ steps).bind fun value => ?_
    exact relocates_pure _ (Stmt.return token.position value)
  case h_3 =>
    refine relocates_take.bind fun _ => (relocates_expectSign _).bind fun _ => ?_
    refine (relocates_wholeExpr steps).bind fun condition => (relocates_expectSign _).bind ?_
    refine fun _ => moving.block.bind fun yes => (relocates_accept _).bind fun accepted => ?_
    simp only [id]
    split
    · refine moving.block.bind fun no => ?_
      exact relocates_pure _ (Stmt.branch token.position condition yes (some no))
    · exact relocates_pure _ (Stmt.branch token.position condition yes none)
  case h_4 =>
    refine relocates_take.bind fun _ => (relocates_expectSign _).bind fun _ => ?_
    refine (relocates_loopStart steps).bind fun start => (relocates_expectSign _).bind fun _ => ?_
    refine (relocates_optionalExpr _ steps).bind fun condition => ?_
    refine (relocates_expectSign _).bind fun _ => (relocates_optionalExpr _ steps).bind ?_
    refine fun step => (relocates_expectSign _).bind fun _ => moving.block.bind fun body => ?_
    exact relocates_pure _ (Stmt.loop token.position start condition step body)
  case h_5 => exact moving.block.bind fun body => relocates_pure _ (Stmt.block token.position body)
  case h_6 => exact (relocates_wholeExpr steps).bind fun e => relocates_pure _ (Stmt.expr e)

theorem relocates_block (moving : RelocatingStmt move steps) :
    Relocates move (Stmt.relocateBlock move) (block (steps + 1)) (block (steps + 1)) := by
  simp only [block]
  refine (relocates_expectSign _).bind fun _ => moving.statements.bind fun body => ?_
  exact (relocates_expectSign _).bind fun _ => relocates_pure _ body

theorem relocates_statements (moving : RelocatingStmt move steps) :
    Relocates move (Stmt.relocateBlock move) (statements (steps + 1)) (statements (steps + 1)) := by
  simp only [statements]
  refine (relocates_sees .closeBrace).bind fun seen => ?_
  simp only [id]
  split
  · exact relocates_pure _ []
  · refine moving.statement.bind fun first => moving.statements.bind fun rest => ?_
    exact relocates_pure _ (first :: rest)

theorem relocatingStmt (move : Position → Position) : ∀ steps, RelocatingStmt move steps
  | 0 =>
      { statement := relocates_exhausted _
        block := relocates_exhausted _
        statements := relocates_exhausted _ }
  | steps + 1 =>
      have moving := relocatingStmt move steps
      { statement := relocates_statement moving
        block := relocates_block moving
        statements := relocates_statements moving }

theorem relocates_moreNames (steps : Nat) :
    Relocates move id (moreNames steps) (moreNames steps) := by
  induction steps with
  | zero => exact relocates_exhausted id
  | succ steps ih =>
      simp only [moreNames]
      refine (relocates_accept _).bind fun accepted => ?_
      simp only [id]
      split
      · refine relocates_expectName.bind fun name => ih.bind fun rest => ?_
        exact relocates_pure id (name.text :: rest)
      · exact relocates_pure id []

theorem relocates_params (steps : Nat) : Relocates move id (params steps) (params steps) := by
  simp only [params]
  refine (relocates_expectSign _).bind fun _ => (relocates_sees .closeParen).bind fun seen => ?_
  simp only [id]
  split
  · refine (relocates_pure id []).bind fun names => ?_
    exact (relocates_expectSign _).bind fun _ => relocates_pure id names
  · refine relocates_expectName.bind fun first => (relocates_moreNames steps).bind fun rest => ?_
    refine (relocates_pure id (first.text :: rest)).bind fun names => ?_
    exact (relocates_expectSign _).bind fun _ => relocates_pure id names

theorem relocates_function (seen : FunctionTable) (steps : Nat) :
    Relocates move (Function.relocate move) (function seen steps)
      (function (seen.relocate move) steps) := by
  simp only [function]
  refine (relocates_expectWord _).bind fun _ => relocates_expectName.bind fun name => ?_
  simp only [FunctionTable.contains_relocate, Token.relocate]
  split
  · exact relocates_failAt _ _ _
  · refine (relocates_params steps).bind fun params => ?_
    refine (relocatingStmt move steps).block.bind fun body => ?_
    exact relocates_pure _ (Function.mk name.text params body name.position)

theorem relocates_importName (name : Token) :
    Relocates move id (importName name) (importName (name.relocate move)) := by
  simp only [importName]
  refine (relocates_accept _).bind fun accepted => ?_
  simp only [id]
  split
  · refine relocates_expectName.bind fun other => ?_
    have texts : (other.relocate move).text = (name.relocate move).text ↔ other.text = name.text :=
      .rfl
    by_cases same : other.text = name.text
    · rw [if_pos same, if_pos (texts.2 same)]
      exact relocates_failAt id _ _
    · rw [if_neg same, if_neg (mt texts.1 same)]
      exact relocates_pure id other.text
  · exact relocates_pure id name.text

theorem relocates_importDecl (seen : List Import) :
    Relocates move (Import.relocate move) (importDecl seen)
      (importDecl (seen.map (Import.relocate move))) := by
  simp only [importDecl]
  refine (relocates_expectWord _).bind fun _ => relocates_expectName.bind fun module => ?_
  refine (relocates_sees .dot).bind fun dotted => ?_
  simp only [id]
  split
  · refine relocates_take.bind fun _ => relocates_expectName.bind fun name => ?_
    refine (relocates_importName name).bind fun newName => ?_
    have same := Import.agrees_relocate move ⟨module.text, name.text, newName, name.position⟩ seen
    simp only [Import.relocate] at same
    simp only [Token.relocate, id, same]
    split
    · exact relocates_failAt _ _ _
    · exact relocates_pure _ _
  · exact relocates_fail _ _

theorem relocates_program (seen : Program) (steps : Nat) :
    Relocates move (Program.relocate move) (program seen steps)
      (program (seen.relocate move) steps) := by
  induction steps generalizing seen with
  | zero => exact relocates_exhausted _
  | succ steps ih =>
      simp only [program]
      refine relocates_kind.bind fun kind => ?_
      simp only [id]
      split
      case h_1 => exact relocates_pure _ seen
      case h_2 =>
        refine (relocates_importDecl seen.imports).bind fun decl => ?_
        have := ih { seen with imports := seen.imports ++ [decl] }
        simpa [Program.relocate] using this
      case h_3 =>
        refine (relocates_function seen.functions steps).bind fun f => ?_
        have := ih { seen with functions := seen.functions.add f.name f }
        simpa [Program.relocate, FunctionTable.relocate_add, Function.name_relocate] using this
      case h_4 => exact relocates_fail _ _

end Parser

namespace Program

/-- A program read from a tape with other places is the program read, with other places. -/
theorem ofTape_relocate (tape : Tape) :
    ofTape (tape.relocate move) =
      ((ofTape tape).map (relocate move)).mapError (Stop.relocate move) := by
  simp only [ofTape, Tape.settle_relocate, Tape.length_relocate]
  cases tape.settle with
  | error stop => rfl
  | ok settled =>
      have ran : Parser.program .empty (8 * tape.length + 8) (settled.relocate move) = _ :=
        Parser.relocates_program .empty (8 * tape.length + 8) settled
      change (Parser.program .empty _ (settled.relocate move) >>= _) =
        ((Parser.program .empty _ settled >>= _).map (relocate move)).mapError _
      rw [ran]
      cases Parser.program .empty (8 * tape.length + 8) settled <;> rfl

/-- Tapes that differ only in their places read as programs that do. -/
theorem ofTape_of_unplaced {tape other : Tape} {q : Program}
    (same : tape.unplaced = other.unplaced) (read : ofTape other = .ok q) :
    ∃ p, ofTape tape = .ok p ∧ p.unplaced = q.unplaced := by
  have forgotten : ofTape tape.unplaced = ((ofTape tape).map unplaced).mapError _ :=
    ofTape_relocate tape
  have whole : ofTape other.unplaced = ((ofTape other).map unplaced).mapError _ :=
    ofTape_relocate other
  rw [same, whole, read] at forgotten
  cases result : ofTape tape with
  | error stop =>
      rw [result] at forgotten
      cases forgotten
  | ok p =>
      rw [result] at forgotten
      exact ⟨p, rfl, (Except.ok.inj forgotten).symm⟩

end Program

end Script
