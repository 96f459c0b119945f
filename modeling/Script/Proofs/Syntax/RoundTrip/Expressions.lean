/-
# Script.Proofs.Syntax.RoundTrip.Expressions -- expressions written are read back

Written tokens are read back in front of anything that does not carry them on.  What may
follow depends on how they are read: a target may be followed by all but arguments, an
operand also not by an index or a field, an operation not by a tighter operator, and a
whole expression by no operator at all.

The readers get eight steps for each token, more than the calls between two tokens.  A
reader that goes on in a loop keeps some of them.
-/
import Script.Proofs.Syntax.Printer
import Script.Proofs.Syntax.Steps

namespace Script

set_option autoImplicit false

open Token Tape

/-- No arguments follow. -/
structure Tape.Uncalled (rest : Tape) : Prop where
  settled : rest.Settled
  call : rest.current.kind ≠ .sign .openParen

/-- No arguments, index or field follow. -/
structure Tape.Unaccessed (rest : Tape) : Prop extends rest.Uncalled where
  index : rest.current.kind ≠ .sign .openBracket
  field : rest.current.kind ≠ .sign .dot

/-- Nothing follows that carries an expression on. -/
structure Tape.Ended (greater : Bool) (rest : Tape) : Prop extends rest.Unaccessed where
  assign : rest.current.kind ≠ .sign .assign
  operator : BinaryOp.ofKind? greater rest.current.kind = none

/-- Nothing follows that carries a parenthesis on. -/
structure Tape.Passed (rest : Tape) : Prop where
  settled : rest.Settled
  index : rest.current.kind ≠ .sign .openBracket
  field : rest.current.kind ≠ .sign .dot
  assign : rest.current.kind ≠ .sign .assign
  operator : BinaryOp.ofKind? true rest.current.kind = none

namespace Parser

variable {e : Expr} {ts : List Token} {greater : Bool}

/-- The tokens are read as the target of the accesses behind them. -/
def ReadsTarget (ts : List Token) (e : Expr) : Prop :=
  ∀ (steps left : Nat) {rest : Tape}, rest.Uncalled → 8 * ts.length + left ≤ steps →
    ∃ kept, left ≤ kept ∧ unary steps (prepend ts rest) = accesses e kept rest

def ReadsOperand (ts : List Token) (e : Expr) : Prop :=
  ∀ (steps : Nat) {rest : Tape}, rest.Unaccessed → 8 * ts.length + 1 ≤ steps →
    unary steps (prepend ts rest) = .ok (e, rest)

/-- The tokens are read as the left side of the operators of level `k` or looser behind them. -/
def ReadsOperation (greater : Bool) (k : Nat) (ts : List Token) (e : Expr) : Prop :=
  ∀ (level steps left : Nat) {rest : Tape}, level ≤ k → rest.Unaccessed →
    LooserThan greater (k + 1) rest → 8 * ts.length + 2 + left ≤ steps →
      ∃ kept, left ≤ kept ∧
        operation greater level steps (prepend ts rest) = operators greater level e kept rest

def ReadsWhole (greater : Bool) (ts : List Token) (e : Expr) : Prop :=
  ∀ (steps : Nat) {rest : Tape}, rest.Ended greater → 8 * ts.length + 4 ≤ steps →
    expr greater steps (prepend ts rest) = .ok (e, rest)

theorem ended_of_closing {token : Token} {sign : Sign} (kind : token.kind = .sign sign)
    (closing : sign = .closeParen ∨ sign = .closeBracket ∨ sign = .comma ∨ sign = .semicolon)
    (greater : Bool) (rest : Tape) : (Tape.next token rest).Ended greater := by
  rcases closing with rfl | rfl | rfl | rfl <;>
    exact ⟨⟨⟨rfl, by simp [kind]⟩, by simp [kind], by simp [kind]⟩, by simp [kind],
      by simp [kind, BinaryOp.ofKind?]⟩

/-- At the end of a dictionary `>` is no operator. -/
theorem ended_of_greater {token : Token} (kind : token.kind = .sign .greater) (rest : Tape) :
    (Tape.next token rest).Ended false :=
  ⟨⟨⟨rfl, by simp [kind]⟩, by simp [kind], by simp [kind]⟩, by simp [kind],
    by simp [kind, BinaryOp.ofKind?]⟩

theorem uncalled_ofSign {sign : Sign} (other : sign ≠ .openParen) (p : Position) (rest : Tape) :
    (Tape.next (ofSign sign p) rest).Uncalled :=
  ⟨rfl, by simpa [ofSign] using other⟩

theorem looserThan_of_none {rest : Tape}
    (none : BinaryOp.ofKind? greater rest.current.kind = none) (level : Nat) :
    LooserThan greater level rest := by
  intro op found
  rw [none] at found
  cases found

theorem operators_looser {level steps : Nat} {rest : Tape} (left : Expr) (some : 1 ≤ steps)
    (looser : LooserThan greater level rest) :
    operators greater level left steps rest = .ok (left, rest) := by
  obtain ⟨steps, rfl⟩ := Nat.exists_eq_add_of_le' some
  exact operators_stop left steps (BinaryOp.atLevel?_eq_none looser)

theorem ReadsTarget.operand (reads : ReadsTarget ts e) : ReadsOperand ts e := by
  intro steps rest after enough
  obtain ⟨kept, some, ran⟩ := reads steps 1 after.toUncalled enough
  obtain ⟨kept, rfl⟩ := Nat.exists_eq_add_of_le' some
  rw [ran]
  exact accesses_stop e kept after.index after.field

theorem ReadsOperand.operation (reads : ReadsOperand ts e) (greater : Bool) (k : Nat) :
    ReadsOperation greater k ts e := by
  intro level steps left rest _ after _ enough
  obtain ⟨steps, rfl⟩ := Nat.exists_eq_add_of_le' (by omega : 1 ≤ steps)
  refine ⟨steps, by omega, ?_⟩
  exact operation_unary (reads steps after (by omega))

theorem ReadsOperation.whole {k : Nat} (reads : ReadsOperation greater k ts e) (some : 1 ≤ k) :
    ReadsWhole greater ts e := by
  intro steps rest after enough
  obtain ⟨steps, rfl⟩ := Nat.exists_eq_add_of_le' (by omega : 1 ≤ steps)
  have looser := looserThan_of_none after.operator
  obtain ⟨kept, some, ran⟩ := reads 1 steps 1 some after.toUnaccessed (looser _) (by omega)
  refine expr_operation ?_ after.assign
  rw [ran]
  exact operators_looser e some (looser 1)

/-- Between parentheses every expression is a target, whatever follows. -/
theorem ReadsWhole.unary_grouped (reads : ReadsWhole true ts e) {steps left : Nat} {rest : Tape}
    (settled : rest.Settled) (enough : 8 * (Token.grouped ts).length + left ≤ steps) :
    ∃ kept, left ≤ kept ∧ unary steps (prepend (Token.grouped ts) rest) = accesses e kept rest := by
  simp only [Token.grouped, List.length_append, List.length_cons, List.length_nil] at enough
  obtain ⟨steps, rfl⟩ := Nat.exists_eq_add_of_le' (by omega : 2 ≤ steps)
  refine ⟨steps + 1, by omega, ?_⟩
  simp only [Token.grouped, List.cons_append, prepend_cons, prepend_append, prepend_nil]
  have closing : (Tape.next (mark .closeParen) rest).Ended true :=
    ended_of_closing rfl (.inl rfl) true rest
  have inside := reads steps closing (by omega)
  exact unary_primary rfl
    (primary_group rfl (settled_before ts _ rest) inside rfl settled)

theorem ReadsWhole.grouped (reads : ReadsWhole true ts e) : ReadsTarget (grouped ts) e :=
  fun _ _ _ after enough => reads.unary_grouped after.settled enough

/-- In parentheses an expression ends where no index, field, operator or assignment follows. -/
theorem ReadsWhole.expr_grouped (reads : ReadsWhole true ts e) {steps : Nat} {rest : Tape}
    (after : rest.Passed) (enough : 8 * (Token.grouped ts).length + 4 ≤ steps) :
    expr true steps (prepend (Token.grouped ts) rest) = .ok (e, rest) := by
  obtain ⟨steps, rfl⟩ := Nat.exists_eq_add_of_le' (by omega : 2 ≤ steps)
  have enoughInside : 8 * (Token.grouped ts).length + 1 ≤ steps := by omega
  obtain ⟨kept, some, ran⟩ := reads.unary_grouped after.settled enoughInside
  obtain ⟨kept, rfl⟩ := Nat.exists_eq_add_of_le' some
  rw [accesses_stop e kept after.index after.field] at ran
  refine expr_operation ?_ after.assign
  rw [operation_unary ran]
  exact operators_looser e (by omega) (looserThan_of_none after.operator 1)

variable {spell : Position → Float → String}

/-- Written where any level is asked for, the expression is read back. -/
structure Readable (spell : Position → Float → String) (e : Expr) : Prop where
  target (greater : Bool) : ReadsTarget (e.tokens spell 8 greater) e
  operand (greater : Bool) : ReadsOperand (e.tokens spell 7 greater) e
  operation (greater : Bool) {k : Nat} (some : 1 ≤ k) (bounded : k ≤ 7) :
    ReadsOperation greater k (e.tokens spell k greater) e
  whole (greater : Bool) : ReadsWhole greater (e.tokens spell 0 greater) e

theorem tokens_of_fits {level : Nat} (fits : e.fits level greater = true) :
    e.tokens spell level greater = e.plain spell greater :=
  if_pos fits

theorem tokens_of_not_fits {level : Nat} (loose : e.fits level greater = false) :
    e.tokens spell level greater = grouped (e.plain spell true) :=
  if_neg (Bool.eq_false_iff.1 loose)

theorem tokens_whole (e : Expr) : e.tokens spell 0 true = e.plain spell true :=
  tokens_of_fits (by simp [Expr.fits])

/-- It is enough to read the expression back where it fits, and without parentheses in
parentheses. -/
theorem Readable.of_fits (between : ReadsWhole true (e.plain spell true) e)
    (target : ∀ greater, e.fits 8 greater = true → ReadsTarget (e.plain spell greater) e)
    (operand : ∀ greater, e.fits 7 greater = true → ReadsOperand (e.plain spell greater) e)
    (operation : ∀ greater k, 1 ≤ k → e.fits k greater = true →
      ReadsOperation greater k (e.plain spell greater) e)
    (whole : ∀ greater, e.fits 0 greater = true → ReadsWhole greater (e.plain spell greater) e) :
    Readable spell e where
  target greater := by
    cases fits : e.fits 8 greater with
    | true => exact tokens_of_fits fits ▸ target greater fits
    | false => exact tokens_of_not_fits fits ▸ between.grouped
  operand greater := by
    cases fits : e.fits 7 greater with
    | true => exact tokens_of_fits fits ▸ operand greater fits
    | false => exact tokens_of_not_fits fits ▸ between.grouped.operand
  operation greater k some _ := by
    cases fits : e.fits k greater with
    | true => exact tokens_of_fits fits ▸ operation greater k some fits
    | false => exact tokens_of_not_fits fits ▸ between.grouped.operand.operation greater k
  whole greater := by
    cases fits : e.fits 0 greater with
    | true => exact tokens_of_fits fits ▸ whole greater fits
    | false =>
        have reads := between.grouped.operand.operation greater 1
        exact tokens_of_not_fits fits ▸ reads.whole (Nat.le_refl 1)

theorem level_of_fits {level : Nat} (fits : e.fits level greater = true) :
    level ≤ e.level ∧ (e.isGreater = true → greater = true) := by
  simp only [Expr.fits, Bool.and_eq_true, Bool.or_eq_true, decide_eq_true_eq,
    Bool.not_eq_eq_eq_not, Bool.not_true] at fits
  refine ⟨fits.1, fun comparison => fits.2.resolve_right ?_⟩
  simp [comparison]

/-- A target is read back at every level. -/
theorem Readable.of_target (reads : ∀ greater, ReadsTarget (e.plain spell greater) e) :
    Readable spell e := by
  have operation := fun greater k => (reads greater).operand.operation greater k
  have whole := fun greater => (operation greater 1).whole (Nat.le_refl 1)
  exact .of_fits (whole true) (fun greater _ => reads greater)
    (fun greater _ => (reads greater).operand) (fun greater k _ _ => operation greater k)
    (fun greater _ => whole greater)

theorem Readable.of_operand (level : e.level = 7)
    (reads : ∀ greater, ReadsOperand (e.plain spell greater) e) : Readable spell e := by
  have operation := fun greater k => (reads greater).operation greater k
  have whole := fun greater => (operation greater 1).whole (Nat.le_refl 1)
  refine .of_fits (whole true) (fun greater fits => ?_) (fun greater _ => reads greater)
    (fun greater k _ _ => operation greater k) (fun greater _ => whole greater)
  have := (level_of_fits fits).1
  omega

theorem Readable.of_operation (some : 1 ≤ e.level) (bounded : e.level ≤ 6)
    (reads : ∀ greater k, (e.isGreater = true → greater = true) → k ≤ e.level →
      ReadsOperation greater k (e.plain spell greater) e) : Readable spell e := by
  have whole := fun greater allowed => (reads greater 1 allowed some).whole (Nat.le_refl 1)
  refine .of_fits (whole true fun _ => rfl) (fun greater fits => ?_) (fun greater fits => ?_)
    (fun greater k _ fits => ?_) (fun greater fits => whole greater (level_of_fits fits).2)
  · have := (level_of_fits fits).1
    omega
  · have := (level_of_fits fits).1
    omega
  · exact reads greater k (level_of_fits fits).2 (level_of_fits fits).1

theorem Readable.of_whole (level : e.level = 0)
    (reads : ∀ greater, ReadsWhole greater (e.plain spell greater) e) : Readable spell e := by
  refine .of_fits (reads true) (fun greater fits => ?_) (fun greater fits => ?_)
    (fun greater k some fits => ?_) (fun greater _ => reads greater)
  all_goals
    have := (level_of_fits fits).1
    omega

/-- A literal is the one token it is read from. -/
theorem readsTarget_literal {token : Token} (found : literal? token = some e)
    (unsigned : UnaryOp.ofKind? token.kind = none) : ReadsTarget [token] e := by
  intro steps left rest after enough
  obtain ⟨steps, rfl⟩ := Nat.exists_eq_add_of_le' (by simp at enough; omega : 2 ≤ steps)
  refine ⟨steps + 1, by simp at enough; omega, ?_⟩
  exact unary_primary unsigned (primary_literal found after.settled)

theorem readsTarget_name (p : Position) (word : String) :
    ReadsTarget [ofName word p] (.name p word) := by
  intro steps left rest after enough
  obtain ⟨steps, rfl⟩ := Nat.exists_eq_add_of_le' (by simp at enough; omega : 2 ≤ steps)
  refine ⟨steps + 1, by simp at enough; omega, ?_⟩
  exact unary_primary rfl (primary_name rfl after.settled after.call)

/-- The items between brackets of a kind are read back. -/
def ReadsItems (es : List Expr) (ts : List Token) : Prop :=
  ∀ (close : Sign) (steps : Nat) {closing : Token} {rest : Tape},
    close = .closeParen ∨ close = .closeBracket → closing.kind = .sign close →
      8 * ts.length + 5 ≤ steps →
        items close steps (prepend ts (.next closing rest)) = .ok (es, .next closing rest)

def ReadsEntries (es : List (EntryKey × Expr)) (ts : List Token) : Prop :=
  ∀ (steps : Nat) {closing : Token} {rest : Tape}, closing.kind = .sign .greater →
    8 * ts.length + 5 ≤ steps →
      entries steps (prepend ts (.next closing rest)) = .ok (es, .next closing rest)

theorem ReadsItems.arguments {es : List Expr} (reads : ReadsItems es ts) {steps : Nat}
    {rest : Tape} (settled : rest.Settled) (enough : 8 * (grouped ts).length ≤ steps) :
    arguments steps (prepend (grouped ts) rest) = .ok (es, rest) := by
  simp only [Token.grouped, List.length_append, List.length_cons, List.length_nil] at enough
  obtain ⟨steps, rfl⟩ := Nat.exists_eq_add_of_le' (by omega : 1 ≤ steps)
  simp only [Token.grouped, List.cons_append, prepend_cons, prepend_append, prepend_nil]
  exact arguments_parens rfl (settled_before ts _ rest)
    (reads .closeParen steps (.inl rfl) rfl (by omega)) rfl settled

theorem readsTarget_call (p : Position) (callee : String) {args : List Expr}
    (reads : ReadsItems args ts) :
    ReadsTarget (ofName callee p :: grouped ts) (.call p callee args) := by
  intro steps left rest after enough
  rw [List.length_cons] at enough
  obtain ⟨steps, rfl⟩ := Nat.exists_eq_add_of_le' (by omega : 2 ≤ steps)
  refine ⟨steps + 1, by omega, ?_⟩
  exact unary_primary rfl
    (primary_call rfl rfl rfl (reads.arguments after.settled (by omega)))

theorem readsTarget_list (p : Position) {es : List Expr} (reads : ReadsItems es ts) :
    ReadsTarget (ofSign .openBracket p :: ts ++ [mark .closeBracket]) (.list p es) := by
  intro steps left rest after enough
  simp only [List.length_append, List.length_cons, List.length_nil] at enough
  obtain ⟨steps, rfl⟩ := Nat.exists_eq_add_of_le' (by omega : 2 ≤ steps)
  refine ⟨steps + 1, by omega, ?_⟩
  simp only [List.cons_append, prepend_cons, prepend_append, prepend_nil]
  exact unary_primary rfl (primary_list rfl (settled_before ts _ rest)
    (reads .closeBracket steps (.inr rfl) rfl (by omega)) rfl after.settled)

theorem readsTarget_dict (p : Position) {es : List (EntryKey × Expr)}
    (reads : ReadsEntries es ts) :
    ReadsTarget (ofSign .less p :: ts ++ [mark .greater]) (.dict p es) := by
  intro steps left rest after enough
  simp only [List.length_append, List.length_cons, List.length_nil] at enough
  obtain ⟨steps, rfl⟩ := Nat.exists_eq_add_of_le' (by omega : 2 ≤ steps)
  refine ⟨steps + 1, by omega, ?_⟩
  simp only [List.cons_append, prepend_cons, prepend_append, prepend_nil]
  exact unary_primary rfl (primary_dict rfl (settled_before ts _ rest)
    (reads steps rfl (by omega)) rfl after.settled)

theorem ReadsTarget.field {word : String} (reads : ReadsTarget ts e) (p : Position) :
    ReadsTarget (ts ++ [mark .dot] ++ [ofName word p]) (.field p e word) := by
  intro steps left rest after enough
  simp only [List.length_append, List.length_cons, List.length_nil] at enough
  simp only [prepend_append, prepend_cons, prepend_nil]
  have dot : (Tape.next (mark .dot) (.next (ofName word p) rest)).Uncalled :=
    uncalled_ofSign (by decide) .start _
  obtain ⟨kept, some, ran⟩ := reads steps (left + 1) dot (by omega)
  obtain ⟨kept, rfl⟩ := Nat.exists_eq_add_of_le' (by omega : 1 ≤ kept)
  refine ⟨kept, by omega, ?_⟩
  rw [ran]
  exact accesses_field e rfl rfl after.settled after.call

theorem ReadsTarget.method {word : String} {args : List Expr} {inside : List Token}
    (reads : ReadsTarget ts e) (p : Position) (items : ReadsItems args inside) :
    ReadsTarget (ts ++ [mark .dot] ++ [ofName word p] ++ grouped inside)
      (.method p e word args) := by
  intro steps left rest after enough
  simp only [List.length_append, List.length_cons, List.length_nil] at enough
  simp only [prepend_append, prepend_cons, prepend_nil]
  have dot :
      (Tape.next (mark .dot) (.next (ofName word p) (prepend (grouped inside) rest))).Uncalled :=
    uncalled_ofSign (by decide) .start _
  obtain ⟨kept, some, ran⟩ :=
    reads steps (8 * (grouped inside).length + left + 1) dot (by omega)
  obtain ⟨kept, rfl⟩ := Nat.exists_eq_add_of_le' (by omega : 1 ≤ kept)
  refine ⟨kept, by omega, ?_⟩
  rw [ran]
  exact accesses_method e rfl rfl rfl rfl (items.arguments after.settled (by omega))

theorem ReadsTarget.index {i : Expr} {inside : List Token} (reads : ReadsTarget ts e)
    (p : Position) (whole : ReadsWhole true inside i) :
    ReadsTarget (ts ++ [ofSign .openBracket p] ++ inside ++ [mark .closeBracket])
      (.index p e i) := by
  intro steps left rest after enough
  simp only [List.length_append, List.length_cons, List.length_nil] at enough
  simp only [prepend_append, prepend_cons, prepend_nil]
  have bracket : (Tape.next (ofSign .openBracket p)
      (prepend inside (.next (mark .closeBracket) rest))).Uncalled :=
    uncalled_ofSign (by decide) p _
  obtain ⟨kept, some, ran⟩ := reads steps (8 * inside.length + left + 5) bracket (by omega)
  obtain ⟨kept, rfl⟩ := Nat.exists_eq_add_of_le' (by omega : 1 ≤ kept)
  refine ⟨kept, by omega, ?_⟩
  have closing : (Tape.next (mark .closeBracket) rest).Ended true :=
    ended_of_closing rfl (.inr (.inl rfl)) true rest
  rw [ran]
  exact accesses_index e rfl (settled_before inside _ rest) (whole kept closing (by omega)) rfl
    after.settled

theorem ReadsOperand.unary (reads : ReadsOperand ts e) (p : Position) (op : UnaryOp) :
    ReadsOperand (ofSign op.sign p :: ts) (.unary p op e) := by
  intro steps rest after enough
  rw [List.length_cons] at enough
  obtain ⟨steps, rfl⟩ := Nat.exists_eq_add_of_le' (by omega : 1 ≤ steps)
  exact unary_sign rfl (settled_prepend after.settled ts) (reads steps after (by omega))

theorem unaccessed_ofSign {sign : Sign} (call : sign ≠ .openParen) (index : sign ≠ .openBracket)
    (field : sign ≠ .dot) (p : Position) (rest : Tape) :
    (Tape.next (ofSign sign p) rest).Unaccessed :=
  ⟨uncalled_ofSign call p rest, by simpa [ofSign] using index, by simpa [ofSign] using field⟩

theorem unaccessed_operator (op : BinaryOp) (p : Position) (rest : Tape) :
    (Tape.next (ofSign op.sign p) rest).Unaccessed :=
  unaccessed_ofSign (by cases op <;> decide) (by cases op <;> decide) (by cases op <;> decide)
    p rest

theorem looserThan_operator {op : BinaryOp} (allowed : op = .greater → greater = true)
    (p : Position) (rest : Tape) :
    LooserThan greater (op.level + 1) (.next (ofSign op.sign p) rest) := by
  intro other found
  rw [show (Tape.next (ofSign op.sign p) rest).current.kind = .sign op.sign from rfl,
    BinaryOp.ofKind?_sign op allowed] at found
  cases found
  exact Nat.lt_succ_self _

/-- The left side stops in front of the operator, since it binds no looser; the right side stops
where the whole does, since it binds tighter. -/
theorem ReadsOperation.binary {op : BinaryOp} {l r : Expr} {us : List Token} {k : Nat}
    (first : ReadsOperation greater op.level ts l)
    (second : ReadsOperation greater (op.level + 1) us r)
    (allowed : op = .greater → greater = true) (loose : k ≤ op.level) (p : Position) :
    ReadsOperation greater k (ts ++ [ofSign op.sign p] ++ us) (.binary p op l r) := by
  intro level steps left rest bounded after looser enough
  simp only [List.length_append, List.length_cons, List.length_nil] at enough
  simp only [prepend_append, prepend_cons, prepend_nil]
  obtain ⟨kept, some, ran⟩ := first level steps (8 * us.length + 4 + left) (by omega)
    (unaccessed_operator op p _) (looserThan_operator allowed p _) (by omega)
  obtain ⟨kept, rfl⟩ := Nat.exists_eq_add_of_le' (by omega : 1 ≤ kept)
  have stops : ∀ bound, op.level < bound → LooserThan greater bound rest := by
    intro bound tighter other found
    have := looser other found
    omega
  obtain ⟨last, some', ran'⟩ := second (op.level + 1) kept 1 (Nat.le_refl _) after
    (stops _ (by omega)) (by omega)
  have right : operation greater (op.level + 1) kept (prepend us rest) = .ok (r, rest) := by
    rw [ran']
    exact operators_looser r some' (stops _ (by omega))
  refine ⟨kept, by omega, ?_⟩
  rw [ran]
  exact operators_sign l rfl allowed (by omega) (settled_prepend after.settled us) right

/-- In front of an assignment sign an operand is a whole operation. -/
theorem ReadsOperand.left (reads : ReadsOperand ts e) (greater : Bool) {steps : Nat} (mid : Tape)
    (enough : 8 * ts.length + 3 ≤ steps) :
    Parser.operation greater 1 steps (prepend ts (.next (mark .assign) mid)) =
      .ok (e, .next (mark .assign) mid) := by
  have looser : ∀ level, LooserThan greater level (.next (mark .assign) mid) :=
    looserThan_of_none rfl
  have after : (Tape.next (mark .assign) mid).Unaccessed :=
    unaccessed_ofSign (by decide) (by decide) (by decide) .start mid
  obtain ⟨kept, some, ran⟩ :=
    reads.operation greater 1 1 steps 1 (Nat.le_refl 1) after (looser 2) (by omega)
  rw [ran]
  exact operators_looser e some (looser 1)

theorem ReadsWhole.assign {value : Expr} (reads : ReadsWhole greater ts value) (p : Position)
    (word : String) :
    ReadsWhole greater ([ofName word p] ++ [mark .assign] ++ ts) (.assign p word value) := by
  intro steps rest after enough
  simp only [List.length_append, List.length_cons, List.length_nil] at enough
  obtain ⟨steps, rfl⟩ := Nat.exists_eq_add_of_le' (by omega : 1 ≤ steps)
  have enoughLeft : 8 * [ofName word p].length + 3 ≤ steps := by
    simp only [List.length_cons, List.length_nil]
    omega
  have left := (readsTarget_name p word).operand.left greater (prepend ts rest) enoughLeft
  rw [prepend_append, prepend_append]
  exact expr_assignment left rfl (settled_prepend after.settled ts) (reads steps after (by omega))

theorem ReadsWhole.setIndex {value i : Expr} {us : List Token}
    (reads : ReadsWhole greater us value) {p : Position} (target : ReadsTarget ts (.index p e i)) :
    ReadsWhole greater (ts ++ [mark .assign] ++ us) (.setIndex p e i value) := by
  intro steps rest after enough
  simp only [List.length_append, List.length_cons, List.length_nil] at enough
  obtain ⟨steps, rfl⟩ := Nat.exists_eq_add_of_le' (by omega : 1 ≤ steps)
  have enoughLeft : 8 * ts.length + 3 ≤ steps := by omega
  have left := target.operand.left greater (prepend us rest) enoughLeft
  rw [prepend_append, prepend_append]
  exact expr_assignment left rfl (settled_prepend after.settled us) (reads steps after (by omega))

/-- No expression begins with a closing sign. -/
theorem expr_begins {steps : Nat} {tape rest : Tape} {sign : Sign}
    (closing : sign = .closeParen ∨ sign = .closeBracket ∨ sign = .semicolon)
    (ran : expr greater steps tape = .ok (e, rest)) : tape.current.kind ≠ .sign sign := by
  intro kind
  obtain _ | steps := steps
  · cases ran
  simp only [expr] at ran
  obtain ⟨_, _, ran, -⟩ := Reader.bind_ok ran
  obtain _ | steps := steps
  · cases ran
  simp only [operation] at ran
  obtain ⟨_, _, ran, -⟩ := Reader.bind_ok ran
  obtain _ | steps := steps
  · cases ran
  have unsigned : UnaryOp.ofKind? (.sign sign) = none := by
    rcases closing with rfl | rfl | rfl <;> rfl
  simp only [unary, Reader.kind_bind, kind, unsigned] at ran
  obtain ⟨_, _, ran, -⟩ := Reader.bind_ok ran
  obtain _ | steps := steps
  · cases ran
  simp only [primary, Reader.current_bind, literal?_sign kind, kind] at ran
  rcases closing with rfl | rfl | rfl <;> cases ran

/-- Items with a comma before each are read back, and end the expression before them. -/
structure ReadsMore (es : List Expr) (ts : List Token) : Prop where
  ends {closing : Token} {sign : Sign} (rest : Tape) :
    sign = .closeParen ∨ sign = .closeBracket → closing.kind = .sign sign →
      (prepend ts (.next closing rest)).Ended true
  reads (steps : Nat) {closing : Token} {sign : Sign} (rest : Tape) :
    sign = .closeParen ∨ sign = .closeBracket → closing.kind = .sign sign →
      8 * ts.length + 1 ≤ steps →
        moreItems steps (prepend ts (.next closing rest)) = .ok (es, .next closing rest)

theorem readsMore_nil : ReadsMore [] [] where
  ends rest sign kind := ended_of_closing kind (sign.imp_right .inl) true rest
  reads steps closing sign' rest sign kind enough := by
    obtain ⟨steps, rfl⟩ := Nat.exists_eq_add_of_le' (by simp at enough; omega : 1 ≤ steps)
    refine moreItems_none steps ?_
    rcases sign with rfl | rfl <;> simp [kind]

theorem ReadsMore.cons {es : List Expr} {us : List Token} (others : ReadsMore es us)
    (first : ReadsWhole true ts e) : ReadsMore (e :: es) (mark .comma :: ts ++ us) where
  ends rest _ _ := ended_of_closing rfl (.inr (.inr (.inl rfl))) true _
  reads steps closing sign' rest sign kind enough := by
    simp only [List.length_append, List.length_cons] at enough
    obtain ⟨steps, rfl⟩ := Nat.exists_eq_add_of_le' (by omega : 1 ≤ steps)
    have settled : (prepend (ts ++ us) (.next closing rest)).Settled :=
      settled_before _ closing rest
    rw [prepend_append] at settled
    simp only [List.cons_append, prepend_cons, prepend_append]
    exact moreItems_some rfl settled (first steps (others.ends rest sign kind) (by omega))
      (others.reads steps rest sign kind (by omega))

theorem readsItems_nil : ReadsItems [] [] := by
  intro close steps closing rest _ kind enough
  obtain ⟨steps, rfl⟩ := Nat.exists_eq_add_of_le' (by simp at enough; omega : 1 ≤ steps)
  exact items_none steps kind

theorem ReadsMore.items {es : List Expr} {us : List Token} (others : ReadsMore es us)
    (first : ReadsWhole true ts e) : ReadsItems (e :: es) (ts ++ us) := by
  intro close steps closing rest sign kind enough
  rw [List.length_append] at enough
  obtain ⟨steps, rfl⟩ := Nat.exists_eq_add_of_le' (by omega : 1 ≤ steps)
  rw [prepend_append]
  have ran := first steps (others.ends rest sign kind) (by omega)
  exact items_some (expr_begins (sign.imp_right .inl) ran) ran
    (others.reads steps rest sign kind (by omega))

/-- Some entries are read back in front of the end of the dictionary. -/
def ReadsSomeEntries (es : List (EntryKey × Expr)) (ts : List Token) : Prop :=
  ∀ (steps : Nat) {closing : Token} (rest : Tape), closing.kind = .sign .greater →
    8 * ts.length ≤ steps →
      someEntries steps (prepend ts (.next closing rest)) = .ok (es, .next closing rest)

theorem key_token (key : EntryKey) : Grammar.Key key.token key := by
  cases key with
  | literal text => exact .literal rfl
  | name text => exact .name rfl

theorem ReadsWhole.lastEntry (value : ReadsWhole false ts e) (key : EntryKey) :
    ReadsSomeEntries [(key, e)] (key.token :: mark .colon :: ts) := by
  intro steps closing rest kind enough
  simp only [List.length_cons] at enough
  obtain ⟨steps, rfl⟩ := Nat.exists_eq_add_of_le' (by omega : 1 ≤ steps)
  have ran := value steps (ended_of_greater kind rest) (by omega)
  exact someEntries_last (key_token key) rfl (settled_before ts closing rest) ran (by simp [kind])

theorem ReadsWhole.moreEntries {es : List (EntryKey × Expr)} {us : List Token}
    (value : ReadsWhole false ts e) (key : EntryKey) (others : ReadsSomeEntries es us) :
    ReadsSomeEntries ((key, e) :: es)
      (key.token :: mark .colon :: ts ++ mark .comma :: us) := by
  intro steps closing rest kind enough
  simp only [List.length_append, List.length_cons] at enough
  obtain ⟨steps, rfl⟩ := Nat.exists_eq_add_of_le' (by omega : 1 ≤ steps)
  simp only [List.cons_append, prepend_cons, prepend_append]
  have comma : (Tape.next (mark .comma) (prepend us (.next closing rest))).Ended false :=
    ended_of_closing rfl (.inr (.inr (.inl rfl))) false _
  exact someEntries_more (key_token key) rfl (settled_before ts _ _)
    (value steps comma (by omega)) rfl (settled_before us closing rest)
    (others steps rest kind (by omega))

theorem readsEntries_nil : ReadsEntries [] [] := by
  intro steps closing rest kind enough
  obtain ⟨steps, rfl⟩ := Nat.exists_eq_add_of_le' (by simp at enough; omega : 1 ≤ steps)
  exact entries_none steps kind

theorem readsEntries_of_some {es : List (EntryKey × Expr)}
    (some : es ≠ [] → ReadsSomeEntries es (Expr.entryTokens spell es)) :
    ReadsEntries es (Expr.entryTokens spell es) := by
  cases es with
  | nil => exact readsEntries_nil
  | cons entry es =>
      intro steps closing rest kind enough
      obtain ⟨steps, rfl⟩ := Nat.exists_eq_add_of_le' (by omega : 1 ≤ steps)
      obtain ⟨key, e⟩ := entry
      have keyed : key.token.kind ≠ .sign .greater := by cases key <;> simp [EntryKey.token, ofName]
      have open_ : (prepend (Expr.entryTokens spell ((key, e) :: es))
          (.next closing rest)).current.kind ≠ .sign .greater := keyed
      rw [entries_some steps open_]
      exact some (List.cons_ne_nil _ es) steps rest kind (by omega)

mutual

/-- Every expression, written where any level is asked for, is read back. -/
theorem readable (spell : Position → Float → String) : ∀ e, Readable spell e
  | .number p x => .of_target fun _ => readsTarget_literal rfl rfl
  | .string p text => .of_target fun _ => readsTarget_literal rfl rfl
  | .bool p true => .of_target fun _ => readsTarget_literal rfl rfl
  | .bool p false => .of_target fun _ => readsTarget_literal rfl rfl
  | .null p => .of_target fun _ => readsTarget_literal rfl rfl
  | .typeName p tag => .of_target fun _ => readsTarget_literal rfl rfl
  | .name p word => .of_target fun _ => readsTarget_name p word
  | .list p items => .of_target fun _ => readsTarget_list p (readsItems spell items)
  | .dict p entries =>
      have inside := readsEntries_of_some (readsSomeEntries spell entries)
      .of_target fun _ => readsTarget_dict p inside
  | .call p callee args => .of_target fun _ => readsTarget_call p callee (readsItems spell args)
  | .field p target word =>
      .of_target fun greater => ((readable spell target).target greater).field p
  | .method p target word args =>
      .of_target fun greater =>
        ((readable spell target).target greater).method p (readsItems spell args)
  | .index p target i => by
      have inside := (readable spell i).whole true
      rw [tokens_whole] at inside
      exact .of_target fun greater => ((readable spell target).target greater).index p inside
  | .unary p op operand =>
      .of_operand rfl fun greater => ((readable spell operand).operand greater).unary p op
  | .binary p op left right => by
      have some : 1 ≤ op.level := by cases op <;> decide
      have bounded := op.level_le
      refine .of_operation some bounded fun greater k allowed loose => ?_
      have first := (readable spell left).operation greater some (by omega)
      have second := (readable spell right).operation greater
        (by omega : 1 ≤ op.level + 1) (by omega)
      exact first.binary second (fun same => allowed (by rw [same]; rfl)) loose p
  | .assign p word value =>
      .of_whole rfl fun greater => ((readable spell value).whole greater).assign p word
  | .setIndex p target i value => by
      have inside := (readable spell i).whole true
      rw [tokens_whole] at inside
      refine .of_whole rfl fun greater => ?_
      have place := ((readable spell target).target greater).index p inside
      exact ((readable spell value).whole greater).setIndex place

theorem readsItems (spell : Position → Float → String) :
    ∀ es, ReadsItems es (Expr.itemTokens spell es)
  | [] => readsItems_nil
  | e :: es => by
      have first := (readable spell e).whole true
      rw [tokens_whole] at first
      exact (readsMore spell es).items first

theorem readsMore (spell : Position → Float → String) :
    ∀ es, ReadsMore es (Expr.moreTokens spell es)
  | [] => readsMore_nil
  | e :: es => by
      have first := (readable spell e).whole true
      rw [tokens_whole] at first
      exact (readsMore spell es).cons first

theorem readsSomeEntries (spell : Position → Float → String) :
    ∀ es, es ≠ [] → ReadsSomeEntries es (Expr.entryTokens spell es)
  | [], inhabited => absurd rfl inhabited
  | [(key, e)], _ => by
      have last := ((readable spell e).whole false).lastEntry key
      rw [← List.append_nil (key.token :: _)] at last
      exact last
  | (key, e) :: (other, value) :: es, _ => by
      have others := readsSomeEntries spell ((other, value) :: es) (List.cons_ne_nil _ es)
      exact ((readable spell e).whole false).moreEntries key others

end

end Parser

end Script
