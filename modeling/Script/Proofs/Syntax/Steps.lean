/-
# Script.Proofs.Syntax.Steps -- what a reader does with what it expects

One equation for each way a reader of expressions can go on: it takes the tokens in front
of it, hands what follows to the readers it calls and ends with what they give.  The
tokens are given by their kinds, and the tape behind each is settled.
-/
import Script.Proofs.Syntax.Operators
import Script.Proofs.Syntax.Reading

namespace Script

set_option autoImplicit false

namespace Tape

@[simp] theorem current_next (token : Token) (rest : Tape) :
    (next token rest).current = token := rfl

end Tape

namespace Reader

variable {α β : Type} {tape mid rest : Tape} {token : Token} {wanted : Token.Kind}

theorem bind_of_ok {x : Reader α} {f : α → Reader β} {a : α} (ran : x tape = .ok (a, mid)) :
    (x >>= f) tape = f a mid := by
  change (x tape >>= fun p => f p.1 p.2) = _
  rw [ran]
  rfl

theorem take_next (settled : rest.Settled) : take (.next token rest) = .ok (token, rest) := by
  change rest.settle.map _ = _
  rw [show rest.settle = .ok rest from settled]
  rfl

theorem expect_next (kind : token.kind = wanted) (settled : rest.Settled) :
    expect wanted (.next token rest) = .ok (token, rest) := by
  rw [expect, kind_bind, Tape.current_next, if_pos kind]
  exact take_next settled

theorem expectSign_next {sign : Sign} (kind : token.kind = .sign sign) (settled : rest.Settled) :
    expectSign sign (.next token rest) = .ok (token, rest) :=
  expect_next kind settled

theorem expectName_next (kind : token.kind = .name) (settled : rest.Settled) :
    expectName (.next token rest) = .ok (token, rest) :=
  expect_next kind settled

theorem expectWord_next {word : Keyword} (kind : token.kind = .keyword word)
    (settled : rest.Settled) : expectWord word (.next token rest) = .ok (token, rest) :=
  expect_next kind settled

theorem accept_next (kind : token.kind = wanted) (settled : rest.Settled) :
    accept wanted (.next token rest) = .ok (true, rest) := by
  rw [accept, kind_bind, Tape.current_next, if_pos kind, bind_of_ok (take_next settled)]
  rfl

theorem accept_other (other : tape.current.kind ≠ wanted) :
    accept wanted tape = .ok (false, tape) := by
  rw [accept, kind_bind, if_neg other]
  rfl

theorem sees_yes {sign : Sign} {f : Bool → Reader α} (found : tape.current.kind = .sign sign) :
    (sees sign >>= f) tape = f true tape := by
  rw [sees_bind, decide_eq_true found]

theorem sees_no {sign : Sign} {f : Bool → Reader α} (missing : tape.current.kind ≠ .sign sign) :
    (sees sign >>= f) tape = f false tape := by
  rw [sees_bind, decide_eq_false missing]

end Reader

namespace Parser

open Reader

variable {greater : Bool} {level steps : Nat} {tape mid rest : Tape} {token : Token} {e : Expr}

theorem unary_sign {op : UnaryOp} (kind : token.kind = .sign op.sign) (settled : mid.Settled)
    (operand : unary steps mid = .ok (e, rest)) :
    unary (steps + 1) (.next token mid) = .ok (.unary token.position op e, rest) := by
  simp only [unary, kind_bind, Tape.current_next, kind, UnaryOp.ofKind?_sign]
  rw [bind_of_ok (take_next settled), bind_of_ok operand]
  rfl

theorem unary_primary (unsigned : UnaryOp.ofKind? tape.current.kind = none)
    (first : primary steps tape = .ok (e, mid)) :
    unary (steps + 1) tape = accesses e steps mid := by
  simp only [unary, kind_bind, unsigned]
  exact bind_of_ok first

theorem operation_unary (first : unary steps tape = .ok (e, mid)) :
    operation greater level (steps + 1) tape = operators greater level e steps mid := by
  simp only [operation]
  exact bind_of_ok first

theorem operators_stop (left : Expr) (steps : Nat)
    (none : BinaryOp.atLevel? greater level tape.current.kind = none) :
    operators greater level left (steps + 1) tape = .ok (left, tape) := by
  simp only [operators, kind_bind, none]
  rfl

theorem operators_sign {op : BinaryOp} (left : Expr) (kind : token.kind = .sign op.sign)
    (allowed : op = .greater → greater = true) (tight : level ≤ op.level) (settled : mid.Settled)
    (right : operation greater (op.level + 1) steps mid = .ok (e, rest)) :
    operators greater level left (steps + 1) (.next token mid) =
      operators greater level (.binary token.position op left e) steps rest := by
  simp only [operators, kind_bind, Tape.current_next, kind, BinaryOp.atLevel?_sign op allowed tight]
  rw [bind_of_ok (take_next settled)]
  exact bind_of_ok right

theorem expr_operation (whole : operation greater 1 steps tape = .ok (e, rest))
    (ends : rest.current.kind ≠ .sign .assign) :
    expr greater (steps + 1) tape = .ok (e, rest) := by
  simp only [expr]
  rw [bind_of_ok whole, sees_no ends]
  rfl

theorem expr_assignment {target value : Expr}
    (left : operation greater 1 steps tape = .ok (target, .next token mid))
    (kind : token.kind = .sign .assign) (settled : mid.Settled)
    (right : expr greater steps mid = .ok (value, rest)) :
    expr greater (steps + 1) tape = assignment target value token.position rest := by
  have found : (Tape.next token mid).current.kind = .sign .assign := kind
  simp only [expr]
  rw [bind_of_ok left, sees_yes found, if_pos rfl, bind_of_ok (take_next settled)]
  exact bind_of_ok right

theorem accesses_stop (target : Expr) (steps : Nat)
    (index : tape.current.kind ≠ .sign .openBracket) (dot : tape.current.kind ≠ .sign .dot) :
    accesses target (steps + 1) tape = .ok (target, tape) := by
  simp only [accesses, kind_bind]
  rfl

theorem accesses_index (target : Expr) {closing : Token} {index : Expr}
    (opens : token.kind = .sign .openBracket) (settled : mid.Settled)
    (inside : expr true steps mid = .ok (index, .next closing rest))
    (closes : closing.kind = .sign .closeBracket) (after : rest.Settled) :
    accesses target (steps + 1) (.next token mid) =
      accesses (.index token.position target index) steps rest := by
  simp only [accesses, kind_bind, Tape.current_next, opens]
  rw [bind_of_ok (take_next settled), bind_of_ok inside]
  exact bind_of_ok (expectSign_next closes after)

theorem accesses_field (target : Expr) {name : Token} (points : token.kind = .sign .dot)
    (names : name.kind = .name) (settled : rest.Settled)
    (uncalled : rest.current.kind ≠ .sign .openParen) :
    accesses target (steps + 1) (.next token (.next name rest)) =
      accesses (.field name.position target name.text) steps rest := by
  simp only [accesses, kind_bind, Tape.current_next, points]
  rw [bind_of_ok (take_next (Tape.settled_next name rest)),
    bind_of_ok (expectName_next names settled), sees_no uncalled]
  rfl

theorem accesses_method (target : Expr) {name : Token} {args : List Expr}
    (points : token.kind = .sign .dot) (names : name.kind = .name) (settled : mid.Settled)
    (opens : mid.current.kind = .sign .openParen)
    (inside : arguments steps mid = .ok (args, rest)) :
    accesses target (steps + 1) (.next token (.next name mid)) =
      accesses (.method name.position target name.text args) steps rest := by
  simp only [accesses, kind_bind, Tape.current_next, points]
  rw [bind_of_ok (take_next (Tape.settled_next name mid)),
    bind_of_ok (expectName_next names settled), sees_yes opens, if_pos rfl]
  exact bind_of_ok inside

theorem primary_literal (found : literal? token = some e) (settled : rest.Settled) :
    primary (steps + 1) (.next token rest) = .ok (e, rest) := by
  simp only [primary, current_bind, Tape.current_next, found]
  rw [bind_of_ok (take_next settled)]
  rfl

/-- Signs and names are no literals. -/
theorem literal?_sign {sign : Sign} (kind : token.kind = .sign sign) : literal? token = none := by
  simp [literal?, kind]

theorem literal?_name (kind : token.kind = .name) : literal? token = none := by
  simp [literal?, kind]

theorem primary_name (kind : token.kind = .name) (settled : rest.Settled)
    (uncalled : rest.current.kind ≠ .sign .openParen) :
    primary (steps + 1) (.next token rest) = .ok (.name token.position token.text, rest) := by
  simp only [primary, current_bind, Tape.current_next, literal?_name kind, kind]
  rw [bind_of_ok (take_next settled), sees_no uncalled]
  rfl

theorem primary_call {args : List Expr} (kind : token.kind = .name) (settled : mid.Settled)
    (opens : mid.current.kind = .sign .openParen)
    (inside : arguments steps mid = .ok (args, rest)) :
    primary (steps + 1) (.next token mid) =
      .ok (.call token.position token.text args, rest) := by
  simp only [primary, current_bind, Tape.current_next, literal?_name kind, kind]
  rw [bind_of_ok (take_next settled), sees_yes opens, if_pos rfl, bind_of_ok inside]
  rfl

theorem primary_group {closing : Token} (opens : token.kind = .sign .openParen)
    (settled : mid.Settled) (inside : expr true steps mid = .ok (e, .next closing rest))
    (closes : closing.kind = .sign .closeParen) (after : rest.Settled) :
    primary (steps + 1) (.next token mid) = .ok (e, rest) := by
  simp only [primary, current_bind, Tape.current_next, literal?_sign opens, opens]
  rw [bind_of_ok (take_next settled), bind_of_ok inside,
    bind_of_ok (expectSign_next closes after)]
  rfl

theorem primary_list {closing : Token} {es : List Expr} (opens : token.kind = .sign .openBracket)
    (settled : mid.Settled) (inside : items .closeBracket steps mid = .ok (es, .next closing rest))
    (closes : closing.kind = .sign .closeBracket) (after : rest.Settled) :
    primary (steps + 1) (.next token mid) = .ok (.list token.position es, rest) := by
  simp only [primary, current_bind, Tape.current_next, literal?_sign opens, opens]
  rw [bind_of_ok (take_next settled), bind_of_ok inside,
    bind_of_ok (expectSign_next closes after)]
  rfl

theorem primary_dict {closing : Token} {es : List (EntryKey × Expr)}
    (opens : token.kind = .sign .less) (settled : mid.Settled)
    (inside : entries steps mid = .ok (es, .next closing rest))
    (closes : closing.kind = .sign .greater) (after : rest.Settled) :
    primary (steps + 1) (.next token mid) = .ok (.dict token.position es, rest) := by
  simp only [primary, current_bind, Tape.current_next, literal?_sign opens, opens]
  rw [bind_of_ok (take_next settled), bind_of_ok inside,
    bind_of_ok (expectSign_next closes after)]
  rfl

theorem arguments_parens {closing : Token} {args : List Expr}
    (opens : token.kind = .sign .openParen) (settled : mid.Settled)
    (inside : items .closeParen steps mid = .ok (args, .next closing rest))
    (closes : closing.kind = .sign .closeParen) (after : rest.Settled) :
    arguments (steps + 1) (.next token mid) = .ok (args, rest) := by
  simp only [arguments]
  rw [bind_of_ok (expectSign_next opens settled), bind_of_ok inside,
    bind_of_ok (expectSign_next closes after)]
  rfl

theorem items_none {close : Sign} (steps : Nat) (closed : tape.current.kind = .sign close) :
    items close (steps + 1) tape = .ok ([], tape) := by
  simp only [items]
  rw [sees_yes closed]
  rfl

theorem items_some {close : Sign} {es : List Expr} (open_ : tape.current.kind ≠ .sign close)
    (first : expr true steps tape = .ok (e, mid))
    (others : moreItems steps mid = .ok (es, rest)) :
    items close (steps + 1) tape = .ok (e :: es, rest) := by
  simp only [items]
  rw [sees_no open_, if_neg Bool.false_ne_true, bind_of_ok first, bind_of_ok others]
  rfl

theorem moreItems_none (steps : Nat) (ends : tape.current.kind ≠ .sign .comma) :
    moreItems (steps + 1) tape = .ok ([], tape) := by
  simp only [moreItems]
  rw [bind_of_ok (accept_other ends)]
  rfl

theorem moreItems_some {later : Tape} {es : List Expr} (separates : token.kind = .sign .comma)
    (settled : mid.Settled) (first : expr true steps mid = .ok (e, later))
    (others : moreItems steps later = .ok (es, rest)) :
    moreItems (steps + 1) (.next token mid) = .ok (e :: es, rest) := by
  simp only [moreItems]
  rw [bind_of_ok (accept_next separates settled), if_pos rfl, bind_of_ok first, bind_of_ok others]
  rfl

theorem entries_none (steps : Nat) (closed : tape.current.kind = .sign .greater) :
    entries (steps + 1) tape = .ok ([], tape) := by
  simp only [entries]
  rw [sees_yes closed]
  rfl

theorem entries_some (steps : Nat) (open_ : tape.current.kind ≠ .sign .greater) :
    entries (steps + 1) tape = someEntries steps tape := by
  simp only [entries]
  rw [sees_no open_]
  rfl

/-- The key, the colon and the value of an entry; a comma decides whether another one follows. -/
theorem someEntries_value {colon : Token} {key : EntryKey} (keyed : Grammar.Key token key)
    (separates : colon.kind = .sign .colon) (settled : mid.Settled)
    (value : expr false steps mid = .ok (e, rest)) :
    someEntries (steps + 1) (.next token (.next colon mid)) =
      (do
        if ← accept (.sign .comma) then
          let others ← someEntries steps
          return (key, e) :: others
        else return [(key, e)] : Reader (List (EntryKey × Expr))) rest := by
  have first :
      someEntries.entryKey (.next token (.next colon mid)) = .ok (key, .next colon mid) := by
    cases keyed with
    | literal kind =>
        simp only [someEntries.entryKey, kind_bind, Tape.current_next, kind]
        rw [bind_of_ok (take_next (Tape.settled_next colon mid))]
        rfl
    | name kind =>
        simp only [someEntries.entryKey, kind_bind, Tape.current_next, kind]
        rw [bind_of_ok (take_next (Tape.settled_next colon mid))]
        rfl
  simp only [someEntries]
  rw [bind_of_ok first, bind_of_ok (expectSign_next separates settled), bind_of_ok value]

theorem someEntries_last {colon : Token} {key : EntryKey} (keyed : Grammar.Key token key)
    (separates : colon.kind = .sign .colon) (settled : mid.Settled)
    (value : expr false steps mid = .ok (e, rest)) (ends : rest.current.kind ≠ .sign .comma) :
    someEntries (steps + 1) (.next token (.next colon mid)) = .ok ([(key, e)], rest) := by
  rw [someEntries_value keyed separates settled value, bind_of_ok (accept_other ends)]
  rfl

theorem someEntries_more {colon comma : Token} {key : EntryKey} {later : Tape}
    {es : List (EntryKey × Expr)} (keyed : Grammar.Key token key)
    (separates : colon.kind = .sign .colon) (settled : mid.Settled)
    (value : expr false steps mid = .ok (e, .next comma later))
    (continues : comma.kind = .sign .comma) (after : later.Settled)
    (others : someEntries steps later = .ok (es, rest)) :
    someEntries (steps + 1) (.next token (.next colon mid)) = .ok ((key, e) :: es, rest) := by
  rw [someEntries_value keyed separates settled value, bind_of_ok (accept_next continues after),
    if_pos rfl, bind_of_ok others]
  rfl

end Parser

end Script
