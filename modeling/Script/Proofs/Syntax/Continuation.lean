/-
# Script.Proofs.Syntax.Continuation -- reading with more text behind

A reader looks no further than the token behind the last it takes.  As long as that token
is on its tape, the reader does the same when another tape follows in the place of the end
(`Continues`), and within more steps as well.  A reader that ends with a token it insists
on needs none behind it (`Closes`): a block closes with its brace.  So a function is read
alike before whatever follows (`function_followed`), and an import before anything but a
new name for it (`importDecl_followed`); neither depends on what was read before, except
for clashes with it.
-/
import Script.Proofs.Syntax.Steps
import Script.Proofs.Tape.Joined

namespace Script

set_option autoImplicit false

variable {α β : Type} {tape left rest : Tape}

namespace Tape

/-- There is a token to come. -/
def GoesOn : Tape → Prop
  | .next _ _ => True
  | _ => False

theorem goesOn_of_kind (inside : tape.current.kind ≠ .endOfInput) : tape.GoesOn := by
  cases tape with
  | next token tape => trivial
  | _ => exact absurd rfl inside

theorem settled_of_goesOn (goesOn : tape.GoesOn) : tape.Settled := by
  cases tape with
  | next token tape => rfl
  | _ => cases goesOn

theorem current_followedBy (goesOn : tape.GoesOn) :
    (tape.followedBy rest).current = tape.current := by
  cases tape with
  | next token tape => rfl
  | _ => cases goesOn

theorem settled_followedBy (first : tape.Settled) (second : rest.Settled) :
    (tape.followedBy rest).Settled := by
  cases tape with
  | endOfInput position => exact second
  | fault cause position => cases first
  | next token tape => rfl

end Tape

namespace Reader

/-- Where the first reader stops before a token, the second does the same with another tape
behind. -/
def Continues (rest : Tape) (x y : Reader α) : Prop :=
  ∀ tape a left, x tape = .ok (a, left) → left.GoesOn →
    tape.GoesOn ∧ y (tape.followedBy rest) = .ok (a, left.followedBy rest)

/-- Wherever the first reader stops, the second does the same with another tape behind. -/
def Closes (rest : Tape) (x y : Reader α) : Prop :=
  ∀ tape a left, x tape = .ok (a, left) →
    tape.GoesOn ∧ y (tape.followedBy rest) = .ok (a, left.followedBy rest)

theorem Closes.continues {x y : Reader α} (closes : Closes rest x y) : Continues rest x y :=
  fun tape a left ran _ => closes tape a left ran

theorem continues_pure (a : α) : Continues rest (pure a) (pure a) := by
  intro tape b left ran goesOn
  obtain ⟨rfl, rfl⟩ := pure_ok ran
  exact ⟨goesOn, rfl⟩

theorem continues_exhausted (y : Reader α) : Continues rest exhausted y := by
  intro tape a left ran
  cases ran

theorem continues_fail (cause : Token.Kind → Fault) (y : Reader α) :
    Continues rest (fail cause) y := by
  intro tape a left ran
  cases ran

theorem continues_failAt (position : Position) (cause : Fault) (y : Reader α) :
    Continues rest (failAt position cause) y := by
  intro tape a left ran
  cases ran

section

variable {x y : Reader α} {f g : α → Reader β}

theorem Continues.bind (first : Continues rest x y) (second : ∀ a, Continues rest (f a) (g a)) :
    Continues rest (x >>= f) (y >>= g) := by
  intro tape b left ran goesOn
  obtain ⟨a, mid, ran, later⟩ := bind_ok ran
  obtain ⟨between, later⟩ := second a mid b left later goesOn
  obtain ⟨before, ran⟩ := first tape a mid ran between
  exact ⟨before, (bind_of_ok ran).trans later⟩

theorem Continues.closes (first : Continues rest x y) (second : ∀ a, Closes rest (f a) (g a)) :
    Closes rest (x >>= f) (y >>= g) := by
  intro tape b left ran
  obtain ⟨a, mid, ran, later⟩ := bind_ok ran
  obtain ⟨between, later⟩ := second a mid b left later
  obtain ⟨before, ran⟩ := first tape a mid ran between
  exact ⟨before, (bind_of_ok ran).trans later⟩

theorem Closes.value (closes : Closes rest x y) (value : α → β) :
    Closes rest (x >>= fun a => pure (value a)) (y >>= fun a => pure (value a)) := by
  intro tape b left ran
  obtain ⟨a, mid, first, later⟩ := bind_ok ran
  obtain ⟨rfl, rfl⟩ := pure_ok later
  obtain ⟨before, first⟩ := closes tape a mid first
  exact ⟨before, bind_of_ok first⟩

end

theorem continues_current : Continues rest current current := by
  intro tape token left ran goesOn
  cases ran
  exact ⟨goesOn, by rw [current, Tape.current_followedBy goesOn]⟩

theorem continues_kind : Continues rest kind kind := by
  intro tape found left ran goesOn
  cases ran
  exact ⟨goesOn, by rw [kind, Tape.current_followedBy goesOn]⟩

theorem continues_sees (sign : Sign) : Continues rest (sees sign) (sees sign) := by
  intro tape seen left ran goesOn
  cases ran
  exact ⟨goesOn, by rw [sees, Tape.current_followedBy goesOn]⟩

theorem take_followed {token : Token} (goesOn : tape.GoesOn)
    (settled : (left.followedBy rest).Settled) (took : take tape = .ok (token, left)) :
    take (tape.followedBy rest) = .ok (token, left.followedBy rest) := by
  cases tape with
  | next head tail =>
      change tail.settle.map _ = _ at took
      cases settling : tail.settle with
      | error stop =>
          rw [settling] at took
          cases took
      | ok final =>
          obtain ⟨rfl, -⟩ := Tape.settle_ok settling
          rw [settling] at took
          cases took
          exact take_next settled
  | _ => cases goesOn

theorem continues_take : Continues rest take take := by
  intro tape token left took goesOn
  cases tape with
  | next head tail =>
      refine ⟨trivial, take_followed trivial ?_ took⟩
      cases left with
      | next token left => exact Tape.settled_next token _
      | _ => cases goesOn
  | _ =>
      cases took
      cases goesOn

theorem continues_expect (wanted : Token.Kind) :
    Continues rest (expect wanted) (expect wanted) := by
  refine continues_kind.bind fun kind => ?_
  split
  · exact continues_take
  · exact continues_fail _ _

theorem continues_expectSign (sign : Sign) :
    Continues rest (expectSign sign) (expectSign sign) :=
  continues_expect _

theorem continues_expectName : Continues rest expectName expectName :=
  continues_expect _

theorem continues_expectWord (word : Keyword) :
    Continues rest (expectWord word) (expectWord word) :=
  continues_expect _

theorem continues_accept (wanted : Token.Kind) :
    Continues rest (accept wanted) (accept wanted) := by
  refine continues_kind.bind fun kind => ?_
  split
  · exact continues_take.bind fun _ => continues_pure true
  · exact continues_pure false

/-- A token that is insisted on stands on the tape. -/
theorem closes_expect (settled : rest.Settled) {wanted : Token.Kind}
    (inside : wanted ≠ .endOfInput) : Closes rest (expect wanted) (expect wanted) := by
  intro tape token left took
  obtain ⟨kind, reads⟩ := expect_ok inside took
  obtain rfl : tape = .next token left := reads.whole
  have final : left.Settled := reads.settled (Tape.settled_next token left)
  exact ⟨trivial, expect_next kind (Tape.settled_followedBy final settled)⟩

theorem closes_expectSign (settled : rest.Settled) (sign : Sign) :
    Closes rest (expectSign sign) (expectSign sign) :=
  closes_expect settled (by simp)

theorem closes_expectWord (settled : rest.Settled) (word : Keyword) :
    Closes rest (expectWord word) (expectWord word) :=
  closes_expect settled (by simp)

theorem closes_expectName (settled : rest.Settled) : Closes rest expectName expectName :=
  closes_expect settled (by simp)

end Reader

namespace Parser

open Reader

/-- The expression readers continue, within `more` steps for `steps`. -/
structure Continuing (rest : Tape) (steps more : Nat) : Prop where
  expr (greater : Bool) : Continues rest (expr greater steps) (expr greater more)
  operation (greater : Bool) (level : Nat) :
    Continues rest (operation greater level steps) (operation greater level more)
  operators (greater : Bool) (level : Nat) (left : Expr) :
    Continues rest (operators greater level left steps) (operators greater level left more)
  unary : Continues rest (unary steps) (unary more)
  accesses (target : Expr) : Continues rest (accesses target steps) (accesses target more)
  primary : Continues rest (primary steps) (primary more)
  arguments : Continues rest (arguments steps) (arguments more)
  items (close : Sign) : Continues rest (items close steps) (items close more)
  moreItems : Continues rest (moreItems steps) (moreItems more)
  entries : Continues rest (entries steps) (entries more)
  someEntries : Continues rest (someEntries steps) (someEntries more)

variable {steps more : Nat}

theorem continues_assignment (target value : Expr) (position : Position) :
    Continues rest (assignment target value position) (assignment target value position) := by
  cases target with
  | name | index => exact continues_pure _
  | _ => exact continues_failAt position _ _

theorem continues_expr (on : Continuing rest steps more) (greater : Bool) :
    Continues rest (expr greater (steps + 1)) (expr greater (more + 1)) := by
  simp only [expr]
  refine (on.operation greater 1).bind fun target => (continues_sees .assign).bind fun seen => ?_
  split
  · refine continues_take.bind fun sign => (on.expr greater).bind fun value => ?_
    exact continues_assignment target value sign.position
  · exact continues_pure target

theorem continues_operation (on : Continuing rest steps more) (greater : Bool) (level : Nat) :
    Continues rest (operation greater level (steps + 1)) (operation greater level (more + 1)) := by
  simp only [operation]
  exact on.unary.bind fun left => on.operators greater level left

theorem continues_operators (on : Continuing rest steps more) (greater : Bool) (level : Nat)
    (left : Expr) :
    Continues rest (operators greater level left (steps + 1))
      (operators greater level left (more + 1)) := by
  simp only [operators]
  refine continues_kind.bind fun kind => ?_
  split
  · exact continues_pure left
  · rename_i op _
    refine continues_take.bind fun sign => (on.operation greater (op.level + 1)).bind ?_
    exact fun right => on.operators greater level (.binary sign.position op left right)

theorem continues_unary (on : Continuing rest steps more) :
    Continues rest (unary (steps + 1)) (unary (more + 1)) := by
  simp only [unary]
  refine continues_kind.bind fun kind => ?_
  split
  · exact continues_take.bind fun sign => on.unary.bind fun operand => continues_pure _
  · exact on.primary.bind fun target => on.accesses target

theorem continues_accesses (on : Continuing rest steps more) (target : Expr) :
    Continues rest (accesses target (steps + 1)) (accesses target (more + 1)) := by
  simp only [accesses]
  refine continues_kind.bind fun kind => ?_
  split
  case h_1 =>
    refine continues_take.bind fun bracket => (on.expr true).bind fun index => ?_
    refine (continues_expectSign _).bind fun _ => ?_
    exact on.accesses (.index bracket.position target index)
  case h_2 =>
    refine continues_take.bind fun _ => continues_expectName.bind fun name => ?_
    refine (continues_sees .openParen).bind fun seen => ?_
    split
    · exact on.arguments.bind fun args =>
        on.accesses (.method name.position target name.text args)
    · exact on.accesses (.field name.position target name.text)
  case h_3 => exact continues_pure target

theorem continues_primary (on : Continuing rest steps more) :
    Continues rest (primary (steps + 1)) (primary (more + 1)) := by
  simp only [primary]
  refine continues_current.bind fun token => ?_
  split
  case h_1 e _ => exact continues_take.bind fun _ => continues_pure e
  case h_2 =>
    split
    case h_1 =>
      refine continues_take.bind fun _ => (on.items _).bind fun items => ?_
      exact (continues_expectSign _).bind fun _ => continues_pure _
    case h_2 =>
      refine continues_take.bind fun _ => on.entries.bind fun entries => ?_
      exact (continues_expectSign _).bind fun _ => continues_pure _
    case h_3 =>
      refine continues_take.bind fun _ => (continues_sees .openParen).bind fun seen => ?_
      split
      · exact on.arguments.bind fun args => continues_pure _
      · exact continues_pure _
    case h_4 =>
      refine continues_take.bind fun _ => (on.expr true).bind fun inner => ?_
      exact (continues_expectSign _).bind fun _ => continues_pure inner
    case h_5 => exact continues_fail _ _

theorem continues_arguments (on : Continuing rest steps more) :
    Continues rest (arguments (steps + 1)) (arguments (more + 1)) := by
  simp only [arguments]
  refine (continues_expectSign _).bind fun _ => (on.items _).bind fun args => ?_
  exact (continues_expectSign _).bind fun _ => continues_pure args

theorem continues_items (on : Continuing rest steps more) (close : Sign) :
    Continues rest (items close (steps + 1)) (items close (more + 1)) := by
  simp only [items]
  refine (continues_sees close).bind fun seen => ?_
  split
  · exact continues_pure []
  · refine (on.expr true).bind fun first => on.moreItems.bind fun others => ?_
    exact continues_pure (first :: others)

theorem continues_moreItems (on : Continuing rest steps more) :
    Continues rest (moreItems (steps + 1)) (moreItems (more + 1)) := by
  simp only [moreItems]
  refine (continues_accept _).bind fun accepted => ?_
  split
  · refine (on.expr true).bind fun item => on.moreItems.bind fun others => ?_
    exact continues_pure (item :: others)
  · exact continues_pure []

theorem continues_entries (on : Continuing rest steps more) :
    Continues rest (entries (steps + 1)) (entries (more + 1)) := by
  simp only [entries]
  refine (continues_sees .greater).bind fun seen => ?_
  split
  · exact continues_pure []
  · exact on.someEntries

theorem continues_entryKey :
    Continues rest someEntries.entryKey someEntries.entryKey := by
  simp only [someEntries.entryKey]
  refine continues_kind.bind fun kind => ?_
  split
  · exact continues_take.bind fun token => continues_pure _
  · exact continues_take.bind fun token => continues_pure _
  · exact continues_fail _ _

theorem continues_someEntries (on : Continuing rest steps more) :
    Continues rest (someEntries (steps + 1)) (someEntries (more + 1)) := by
  simp only [someEntries]
  refine continues_entryKey.bind fun key => (continues_expectSign _).bind fun _ => ?_
  refine (on.expr false).bind fun value => (continues_accept _).bind fun accepted => ?_
  split
  · exact on.someEntries.bind fun others => continues_pure ((key, value) :: others)
  · exact continues_pure [(key, value)]

theorem continuing (rest : Tape) : ∀ {steps more}, steps ≤ more → Continuing rest steps more
  | 0, _, _ =>
      { expr := fun _ => continues_exhausted _
        operation := fun _ _ => continues_exhausted _
        operators := fun _ _ _ => continues_exhausted _
        unary := continues_exhausted _
        accesses := fun _ => continues_exhausted _
        primary := continues_exhausted _
        arguments := continues_exhausted _
        items := fun _ => continues_exhausted _
        moreItems := continues_exhausted _
        entries := continues_exhausted _
        someEntries := continues_exhausted _ }
  | _ + 1, _ + 1, enough =>
      have on := continuing rest (Nat.le_of_succ_le_succ enough)
      { expr := continues_expr on
        operation := continues_operation on
        operators := continues_operators on
        unary := continues_unary on
        accesses := continues_accesses on
        primary := continues_primary on
        arguments := continues_arguments on
        items := continues_items on
        moreItems := continues_moreItems on
        entries := continues_entries on
        someEntries := continues_someEntries on }

theorem continues_wholeExpr (enough : steps ≤ more) :
    Continues rest (expr true steps) (expr true more) :=
  (continuing rest enough).expr true

theorem continues_declaration (enough : steps ≤ more) :
    Continues rest (declaration steps) (declaration more) := by
  simp only [declaration]
  refine (continues_expectWord _).bind fun _ => continues_expectName.bind fun name => ?_
  refine (continues_expectSign _).bind fun _ => (continues_wholeExpr enough).bind fun value => ?_
  exact continues_pure _

theorem continues_loopStart (enough : steps ≤ more) :
    Continues rest (loopStart steps) (loopStart more) := by
  simp only [loopStart]
  refine continues_kind.bind fun kind => ?_
  split
  · exact continues_pure _
  · exact (continues_declaration enough).bind fun _ => continues_pure _
  · exact (continues_wholeExpr enough).bind fun e => continues_pure _

theorem continues_optionalExpr (close : Sign) (enough : steps ≤ more) :
    Continues rest (optionalExpr close steps) (optionalExpr close more) := by
  simp only [optionalExpr]
  refine (continues_sees close).bind fun seen => ?_
  split
  · exact continues_pure _
  · exact (continues_wholeExpr enough).bind fun e => continues_pure (some e)

/-- The statement readers continue, and a block needs nothing behind it. -/
structure ContinuingStmt (rest : Tape) (steps more : Nat) : Prop where
  statement : Continues rest (statement steps) (statement more)
  block : Closes rest (block steps) (block more)
  statements : Continues rest (statements steps) (statements more)

theorem continues_statement (on : ContinuingStmt rest steps more) (enough : steps ≤ more) :
    Continues rest (statement (steps + 1)) (statement (more + 1)) := by
  simp only [statement]
  refine continues_current.bind fun token => ?_
  split
  case h_1 => exact (continues_declaration enough).bind fun _ => continues_pure _
  case h_2 =>
    refine continues_take.bind fun _ => (continues_optionalExpr _ enough).bind fun value => ?_
    exact continues_pure _
  case h_3 =>
    refine continues_take.bind fun _ => (continues_expectSign _).bind fun _ => ?_
    refine (continues_wholeExpr enough).bind fun condition => (continues_expectSign _).bind ?_
    refine fun _ => on.block.continues.bind fun yes => (continues_accept _).bind fun accepted => ?_
    split
    · exact on.block.continues.bind fun no => continues_pure _
    · exact continues_pure _
  case h_4 =>
    refine continues_take.bind fun _ => (continues_expectSign _).bind fun _ => ?_
    refine (continues_loopStart enough).bind fun start => (continues_expectSign _).bind fun _ => ?_
    refine (continues_optionalExpr _ enough).bind fun condition => ?_
    refine (continues_expectSign _).bind fun _ => (continues_optionalExpr _ enough).bind ?_
    refine fun step => (continues_expectSign _).bind fun _ => ?_
    exact on.block.continues.bind fun body => continues_pure _
  case h_5 => exact on.block.continues.bind fun body => continues_pure _
  case h_6 => exact (continues_wholeExpr enough).bind fun e => continues_pure _

theorem closes_block (settled : rest.Settled) (on : ContinuingStmt rest steps more) :
    Closes rest (block (steps + 1)) (block (more + 1)) := by
  simp only [block]
  refine (continues_expectSign _).closes fun _ => on.statements.closes fun body => ?_
  exact (closes_expectSign settled _).value fun _ => body

theorem continues_statements (on : ContinuingStmt rest steps more) :
    Continues rest (statements (steps + 1)) (statements (more + 1)) := by
  simp only [statements]
  refine (continues_sees .closeBrace).bind fun seen => ?_
  split
  · exact continues_pure []
  · refine on.statement.bind fun first => on.statements.bind fun others => ?_
    exact continues_pure (first :: others)

theorem continuingStmt (settled : rest.Settled) :
    ∀ {steps more}, steps ≤ more → ContinuingStmt rest steps more
  | 0, _, _ =>
      { statement := continues_exhausted _
        block := fun _ _ _ ran => nomatch ran
        statements := continues_exhausted _ }
  | _ + 1, _ + 1, enough =>
      have fewer := Nat.le_of_succ_le_succ enough
      have on := continuingStmt settled fewer
      { statement := continues_statement on fewer
        block := closes_block settled on
        statements := continues_statements on }

theorem continues_moreNames (enough : steps ≤ more) :
    Continues rest (moreNames steps) (moreNames more) := by
  induction steps generalizing more with
  | zero => exact continues_exhausted _
  | succ steps ih =>
      obtain ⟨more, rfl⟩ := Nat.exists_eq_succ_of_ne_zero (Nat.ne_zero_of_lt enough)
      simp only [moreNames]
      refine (continues_accept _).bind fun accepted => ?_
      split
      · refine continues_expectName.bind fun name => ?_
        refine (ih (Nat.le_of_succ_le_succ enough)).bind fun others => ?_
        exact continues_pure (name.text :: others)
      · exact continues_pure []

theorem continues_params (enough : steps ≤ more) :
    Continues rest (params steps) (params more) := by
  simp only [params]
  refine (continues_expectSign _).bind fun _ => (continues_sees .closeParen).bind fun seen => ?_
  split
  · refine (continues_pure []).bind fun names => ?_
    exact (continues_expectSign _).bind fun _ => continues_pure names
  · refine continues_expectName.bind fun first => (continues_moreNames enough).bind fun others => ?_
    refine (continues_pure (first.text :: others)).bind fun names => ?_
    exact (continues_expectSign _).bind fun _ => continues_pure names

/-- Behind the name of a function stands all of it, up to the closing brace. -/
theorem closes_definition (settled : rest.Settled) (enough : steps ≤ more) (name : Token) :
    Closes rest
      (do
        let params ← params steps
        let body ← block steps
        return Function.mk name.text params body name.position)
      (do
        let params ← params more
        let body ← block more
        return Function.mk name.text params body name.position) :=
  (continues_params enough).closes fun params =>
    (continuingStmt settled enough).block.value fun body =>
      Function.mk name.text params body name.position

/-- A function that is read is read again before any tape and behind any functions, unless one of
these has its name. -/
theorem function_followed {seen : FunctionTable} {f : Function} (settled : rest.Settled)
    (enough : steps ≤ more) (ran : function seen steps tape = .ok (f, left))
    (others : FunctionTable) :
    function others more (tape.followedBy rest) =
      if others.contains f.name then
        .error (.failed (.ofFault (.duplicateFunction f.name) f.position))
      else .ok (f, left.followedBy rest) := by
  simp only [function] at ran ⊢
  obtain ⟨word, _, took, ran⟩ := bind_ok ran
  obtain ⟨-, took⟩ := closes_expectWord settled _ _ _ _ took
  rw [bind_of_ok took]
  obtain ⟨name, _, took, ran⟩ := bind_ok ran
  obtain ⟨-, took⟩ := closes_expectName settled _ _ _ took
  rw [bind_of_ok took]
  split at ran
  case isTrue => cases ran
  case isFalse =>
    obtain ⟨-, again⟩ := closes_definition settled enough name _ _ _ ran
    obtain ⟨params, _, -, ran⟩ := bind_ok ran
    obtain ⟨body, _, -, ran⟩ := bind_ok ran
    obtain ⟨rfl, rfl⟩ := pure_ok ran
    split
    · rfl
    · exact again

/-- What shows no new name goes on to show none, if what follows does not. -/
theorem unnamed_followedBy (here : tape.current.kind ≠ .keyword .as)
    (behind : rest.current.kind ≠ .keyword .as) :
    (tape.followedBy rest).current.kind ≠ .keyword .as := by
  cases tape with
  | endOfInput position => exact behind
  | _ => exact here

theorem importName_followed {name : Token} {newName : String} (settled : rest.Settled)
    (unnamed : rest.current.kind ≠ .keyword .as)
    (ran : importName name tape = .ok (newName, left)) :
    importName name (tape.followedBy rest) = .ok (newName, left.followedBy rest) := by
  obtain ⟨accepted, mid, accepts, naming⟩ := bind_ok ran
  unfold importName
  rcases accept_ok (by simp) accepts with ⟨rfl, as, renames, reads⟩ | ⟨rfl, rfl, here⟩
  · obtain rfl : tape = .next as mid := reads.whole
    have after : (mid.followedBy rest).Settled :=
      Tape.settled_followedBy (reads.settled (Tape.settled_next as mid)) settled
    obtain ⟨other, _, took, naming⟩ := bind_ok naming
    obtain ⟨-, took⟩ := closes_expectName settled _ _ _ took
    rw [Tape.followedBy, bind_of_ok (accept_next renames after), if_pos rfl, bind_of_ok took]
    split at naming
    case isTrue => cases naming
    case isFalse different =>
      obtain ⟨rfl, rfl⟩ := pure_ok naming
      rw [if_neg different]
      rfl
  · obtain ⟨rfl, rfl⟩ := pure_ok naming
    rw [bind_of_ok (accept_other (unnamed_followedBy here unnamed))]
    rfl

/-- An import that is read is read again before any tape that does not name it anew and behind any
imports, unless it agrees with one of these. -/
theorem importDecl_followed {seen : List Import} {decl : Import} (settled : rest.Settled)
    (unnamed : rest.current.kind ≠ .keyword .as)
    (ran : importDecl seen tape = .ok (decl, left)) (others : List Import) :
    importDecl others (tape.followedBy rest) =
      if others.any decl.agrees then
        .error (.failed (.ofFault (.duplicateImport decl.module decl.name) decl.position))
      else .ok (decl, left.followedBy rest) := by
  simp only [importDecl] at ran ⊢
  obtain ⟨word, _, took, ran⟩ := bind_ok ran
  obtain ⟨-, took⟩ := closes_expectWord settled _ _ _ _ took
  rw [bind_of_ok took]
  obtain ⟨module, mid, took, ran⟩ := bind_ok ran
  obtain ⟨-, took⟩ := closes_expectName settled _ _ _ took
  rw [bind_of_ok took]
  rw [sees_bind] at ran
  split at ran
  case isFalse => cases ran
  case isTrue found =>
    have points := of_decide_eq_true found
    have goesOn : mid.GoesOn := Tape.goesOn_of_kind (by simp [points])
    have dotted : (mid.followedBy rest).current.kind = .sign .dot := by
      rw [Tape.current_followedBy goesOn, points]
    rw [sees_yes dotted, if_pos rfl]
    obtain ⟨dot, _, took, ran⟩ := bind_ok ran
    obtain ⟨rfl, reads⟩ := take_ok took (by simp [points])
    have after := reads.settled (Tape.settled_of_goesOn goesOn)
    rw [bind_of_ok (take_followed goesOn (Tape.settled_followedBy after settled) took)]
    obtain ⟨name, _, took, ran⟩ := bind_ok ran
    obtain ⟨-, took⟩ := closes_expectName settled _ _ _ took
    rw [bind_of_ok took]
    obtain ⟨newName, _, naming, ran⟩ := bind_ok ran
    rw [bind_of_ok (importName_followed settled unnamed naming)]
    split at ran
    case isTrue => cases ran
    case isFalse =>
      obtain ⟨rfl, rfl⟩ := pure_ok ran
      split <;> rfl

end Parser

end Script
