/-
# Script.Proofs.Syntax.RoundTrip.Statements -- statements written are read back

The language has no sign between statements, so a statement has to end by itself where
the next one begins.  It does since its expression stands in parentheses, and since no
statement begins with an operator, an index or a field (`Tape.Edge`).  A `return` without
a value is the exception: only a closing brace ends it.
-/
import Script.Proofs.Syntax.Parts
import Script.Proofs.Syntax.RoundTrip.Expressions

namespace Script

set_option autoImplicit false

open Token Tape Reader

namespace Stmt

/-- The blocks that the statement itself has. -/
def blocks : Stmt → List (List Stmt)
  | .branch _ _ yes no => yes :: no.toList
  | .loop _ _ _ _ body => [body]
  | .block _ body => [body]
  | _ => []

/-- Behind a `return` without a value nothing stands in its block. -/
def ReturnsLast (body : List Stmt) : Prop :=
  ∀ before p after, body = before ++ .return p none :: after → after = []

/-- The blocks of the statement itself are such that a `return` without a value comes last. -/
def Orderly (s : Stmt) : Prop :=
  ∀ body ∈ s.blocks, ReturnsLast body

theorem ReturnsLast.tail {s : Stmt} {rest : List Stmt} (last : ReturnsLast (s :: rest)) :
    ReturnsLast rest := by
  intro before p after same
  exact last (s :: before) p after (by rw [same, List.cons_append])

theorem ReturnsLast.alone {p : Position} {rest : List Stmt}
    (last : ReturnsLast (.return p none :: rest)) : rest = [] :=
  last [] p rest rfl

end Stmt

/-- The kinds of token at which a statement ends: those the next one may begin with, and the
closing brace. -/
def Token.Kind.edge : Token.Kind → Bool
  | .keyword .variable | .keyword .return | .keyword .if | .keyword .for => true
  | .sign .openParen | .sign .openBrace | .sign .closeBrace => true
  | _ => false

/-- The edge of a statement comes next. -/
structure Tape.Edge (rest : Tape) : Prop where
  settled : rest.Settled
  edge : rest.current.kind.edge = true

theorem Tape.Edge.passed {rest : Tape} (next : rest.Edge) : rest.Passed := by
  obtain ⟨settled, edge⟩ := next
  unfold Token.Kind.edge at edge
  refine ⟨settled, ?_, ?_, ?_, ?_⟩ <;> split at edge <;> simp_all [BinaryOp.ofKind?]

theorem Tape.Edge.not_else {rest : Tape} (next : rest.Edge) :
    rest.current.kind ≠ .keyword .else := by
  intro kind
  have edge := next.edge
  rw [kind] at edge
  cases edge

theorem passed_of_semicolon {token : Token} (kind : token.kind = .sign .semicolon) (rest : Tape) :
    (Tape.next token rest).Passed :=
  ⟨rfl, by simp [kind], by simp [kind], by simp [kind], by simp [kind, BinaryOp.ofKind?]⟩

namespace Parser

variable (spell : Position → Float → String) {steps : Nat} {rest : Tape}

theorem reads_group (e : Expr) (after : rest.Passed)
    (enough : 8 * (grouped (e.plain spell true)).length + 4 ≤ steps) :
    expr true steps (prepend (grouped (e.plain spell true)) rest) = .ok (e, rest) := by
  have whole := (readable spell e).whole true
  rw [tokens_whole] at whole
  exact whole.expr_grouped after enough

theorem reads_plain (e : Expr) (after : rest.Ended true)
    (enough : 8 * (e.plain spell true).length + 4 ≤ steps) :
    expr true steps (prepend (e.plain spell true) rest) = .ok (e, rest) := by
  have whole := (readable spell e).whole true
  rw [tokens_whole] at whole
  exact whole steps after enough

theorem reads_declaration (p : Position) (name : String) (value : Expr) (after : rest.Passed)
    (enough : 8 * (declarationTokens spell p name value).length ≤ steps) :
    declaration steps (prepend (declarationTokens spell p name value) rest) =
      .ok ((p, name, value), rest) := by
  simp only [declarationTokens, List.length_cons] at enough
  simp only [declarationTokens, prepend_cons, declaration]
  rw [bind_of_ok (expectWord_next rfl (settled_next _ _)),
    bind_of_ok (expectName_next rfl (settled_next _ _)),
    bind_of_ok (expectSign_next rfl (settled_prepend after.settled _)),
    bind_of_ok (reads_group spell value after (by omega))]
  rfl

/-- An expression or nothing, in front of the sign that ends it. -/
theorem reads_option (value : Option Expr) {closing : Token} {sign : Sign}
    (ends : sign = .semicolon ∨ sign = .closeParen) (kind : closing.kind = .sign sign)
    (enough : 8 * (Expr.optionTokens spell value).length + 4 ≤ steps) :
    optionalExpr sign steps (prepend (Expr.optionTokens spell value) (.next closing rest)) =
      .ok (value, .next closing rest) := by
  cases value with
  | none =>
      have found : (Tape.next closing rest).current.kind = .sign sign := kind
      simp only [Expr.optionTokens, prepend_nil, optionalExpr]
      rw [sees_yes found]
      rfl
  | some e =>
      have after : (Tape.next closing rest).Ended true := by
        refine ended_of_closing kind ?_ true rest
        rcases ends with rfl | rfl <;> simp
      have ran := reads_plain spell e after enough
      have begins :
          (prepend (e.plain spell true) (.next closing rest)).current.kind ≠ .sign sign := by
        refine expr_begins ?_ ran
        rcases ends with rfl | rfl <;> simp
      simp only [Expr.optionTokens, optionalExpr]
      rw [sees_no begins, if_neg Bool.false_ne_true, bind_of_ok ran]
      rfl

theorem reads_start (start : LoopStart) {closing : Token} (kind : closing.kind = .sign .semicolon)
    (enough : 8 * (start.tokens spell).length + 4 ≤ steps) :
    loopStart steps (prepend (start.tokens spell) (.next closing rest)) =
      .ok (start, .next closing rest) := by
  have after := passed_of_semicolon kind rest
  cases start with
  | nothing =>
      simp only [LoopStart.tokens, prepend_nil, loopStart, kind_bind, current_next, kind]
      rfl
  | declare p name value =>
      have ran := reads_declaration spell p name value after (Nat.le_of_add_right_le enough)
      have head : (prepend (declarationTokens spell p name value)
          (.next closing rest)).current.kind = .keyword .variable := rfl
      simp only [LoopStart.tokens, loopStart, kind_bind, head]
      rw [bind_of_ok ran]
      rfl
  | expr e =>
      have ran := reads_group spell e after enough
      have head : (prepend (grouped (e.plain spell true))
          (.next closing rest)).current.kind = .sign .openParen := rfl
      simp only [LoopStart.tokens, loopStart, kind_bind, head]
      rw [bind_of_ok ran]
      rfl

variable {spell}

/-- The statement is read back in front of the edge of another one; in front of the closing brace
if it is a `return` without a value. -/
def ReadsStatement (spell : Position → Float → String) (s : Stmt) : Prop :=
  ∀ (steps : Nat) {rest : Tape}, rest.Edge →
    (∀ p, s = .return p none → rest.current.kind = .sign .closeBrace) →
      8 * (s.tokens spell).length + 5 ≤ steps →
        statement steps (prepend (s.tokens spell) rest) = .ok (s, rest)

/-- The statements are read back in front of the closing brace. -/
def ReadsStatements (spell : Position → Float → String) (body : List Stmt) : Prop :=
  ∀ (steps : Nat) {closing : Token} (rest : Tape), closing.kind = .sign .closeBrace →
    8 * (Stmt.blockTokens spell body).length + 6 ≤ steps →
      statements steps (prepend (Stmt.blockTokens spell body) (.next closing rest)) =
        .ok (body, .next closing rest)

theorem ReadsStatements.block {body : List Stmt} (reads : ReadsStatements spell body)
    (p : Position) (settled : rest.Settled)
    (enough : 8 * (braced p (Stmt.blockTokens spell body)).length ≤ steps) :
    block steps (prepend (braced p (Stmt.blockTokens spell body)) rest) = .ok (body, rest) := by
  simp only [braced, List.length_append, List.length_cons, List.length_nil] at enough
  obtain ⟨steps, rfl⟩ := Nat.exists_eq_add_of_le' (by omega : 1 ≤ steps)
  simp only [braced, List.cons_append, prepend_cons, prepend_append, prepend_nil, block]
  rw [bind_of_ok (expectSign_next rfl (settled_before _ _ rest)),
    bind_of_ok (reads steps rest rfl (by omega)), bind_of_ok (expectSign_next rfl settled)]
  rfl

/-- A statement begins with a token at which the one before it ends, and not with a brace that
closes the block. -/
theorem head_tokens (spell : Position → Float → String) (s : Stmt) :
    ∃ token ts, s.tokens spell = token :: ts ∧ token.kind.edge = true ∧
      token.kind ≠ .sign .closeBrace := by
  cases s with
  | «return» p value => cases value <;> exact ⟨_, _, rfl, rfl, by simp [ofWord]⟩
  | branch p condition yes no => cases no <;> exact ⟨_, _, rfl, rfl, by simp [ofWord]⟩
  | declare p name value => exact ⟨_, _, rfl, rfl, by simp [ofWord]⟩
  | expr e => exact ⟨_, _, rfl, rfl, by simp [mark, ofSign]⟩
  | loop p start condition step body => exact ⟨_, _, rfl, rfl, by simp [ofWord]⟩
  | block p body => exact ⟨_, _, rfl, rfl, by simp [ofSign]⟩

theorem edge_blockTokens (spell : Position → Float → String) (body : List Stmt) {closing : Token}
    (rest : Tape) (kind : closing.kind = .sign .closeBrace) :
    (prepend (Stmt.blockTokens spell body) (.next closing rest)).Edge := by
  refine ⟨settled_before _ closing rest, ?_⟩
  cases body with
  | nil => simp [Stmt.blockTokens, kind, Token.Kind.edge]
  | cons s body =>
      obtain ⟨token, ts, shape, edge, -⟩ := head_tokens spell s
      rw [Stmt.blockTokens, shape]
      exact edge

theorem readsStatements_nil : ReadsStatements spell [] := by
  intro steps closing rest kind enough
  obtain ⟨steps, rfl⟩ := Nat.exists_eq_add_of_le' (by omega : 1 ≤ steps)
  have found : (Tape.next closing rest).current.kind = .sign .closeBrace := kind
  simp only [Stmt.blockTokens, prepend_nil, statements]
  rw [sees_yes found]
  rfl

theorem ReadsStatement.cons {s : Stmt} {body : List Stmt} (first : ReadsStatement spell s)
    (others : ReadsStatements spell body) (last : Stmt.ReturnsLast (s :: body)) :
    ReadsStatements spell (s :: body) := by
  intro steps closing rest kind enough
  rw [Stmt.blockTokens, List.length_append] at enough
  obtain ⟨steps, rfl⟩ := Nat.exists_eq_add_of_le' (by omega : 1 ≤ steps)
  obtain ⟨token, ts, shape, -, inside⟩ := head_tokens spell s
  have after := edge_blockTokens spell body rest kind
  have alone : ∀ p, s = .return p none → (prepend (Stmt.blockTokens spell body)
      (.next closing rest)).current.kind = .sign .closeBrace := by
    rintro p rfl
    rw [last.alone]
    exact kind
  have some : 1 ≤ (s.tokens spell).length := by simp [shape]
  have open_ : (prepend (s.tokens spell) (prepend (Stmt.blockTokens spell body)
      (.next closing rest))).current.kind ≠ .sign .closeBrace := by
    rw [shape]
    exact inside
  simp only [statements, Stmt.blockTokens, prepend_append]
  rw [sees_no open_, if_neg Bool.false_ne_true, bind_of_ok (first steps after alone (by omega)),
    bind_of_ok (others steps rest kind (by omega))]
  rfl

theorem readsStatement_declare (p : Position) (name : String) (value : Expr) :
    ReadsStatement spell (.declare p name value) := by
  intro steps rest after _ enough
  obtain ⟨steps, rfl⟩ := Nat.exists_eq_add_of_le' (by omega : 1 ≤ steps)
  rw [Stmt.tokens] at enough ⊢
  have ran := reads_declaration spell p name value after.passed (by omega : _ ≤ steps)
  have head : (prepend (declarationTokens spell p name value) rest).current =
      ofWord .variable .start := rfl
  simp only [statement, current_bind, head, ofWord]
  rw [bind_of_ok ran]
  rfl

theorem readsStatement_expr (e : Expr) : ReadsStatement spell (.expr e) := by
  intro steps rest after _ enough
  obtain ⟨steps, rfl⟩ := Nat.exists_eq_add_of_le' (by omega : 1 ≤ steps)
  rw [Stmt.tokens] at enough ⊢
  have ran := reads_group spell e after.passed (by omega : _ ≤ steps)
  have head : (prepend (grouped (e.plain spell true)) rest).current = mark .openParen := rfl
  simp only [statement, current_bind, head, mark, ofSign]
  rw [bind_of_ok ran]
  rfl

theorem readsStatement_bareReturn (p : Position) : ReadsStatement spell (.return p none) := by
  intro steps rest after closed enough
  obtain ⟨steps, rfl⟩ := Nat.exists_eq_add_of_le' (by omega : 1 ≤ steps)
  simp only [Stmt.tokens, prepend_cons, prepend_nil, statement, current_bind, current_next, ofWord,
    optionalExpr]
  rw [bind_of_ok (take_next after.settled), bind_of_ok (sees_yes (closed p rfl))]
  rfl

theorem readsStatement_return (p : Position) (e : Expr) :
    ReadsStatement spell (.return p (some e)) := by
  intro steps rest after _ enough
  obtain ⟨steps, rfl⟩ := Nat.exists_eq_add_of_le' (by omega : 1 ≤ steps)
  rw [Stmt.tokens, List.length_cons] at enough
  have ran := reads_group spell e after.passed (by omega : _ ≤ steps)
  have open_ : (prepend (grouped (e.plain spell true)) rest).current.kind ≠ .sign .closeBrace := by
    simp [grouped, mark, ofSign]
  have option : optionalExpr .closeBrace steps (prepend (grouped (e.plain spell true)) rest) =
      .ok (some e, rest) := by
    simp only [optionalExpr]
    rw [sees_no open_, if_neg Bool.false_ne_true, bind_of_ok ran]
    rfl
  simp only [Stmt.tokens, prepend_cons, statement, current_bind, current_next, ofWord]
  rw [bind_of_ok (take_next (settled_prepend after.settled _)), bind_of_ok option]
  rfl

theorem ReadsStatements.statement {body : List Stmt} (reads : ReadsStatements spell body)
    (p : Position) : ReadsStatement spell (.block p body) := by
  intro steps rest after _ enough
  obtain ⟨steps, rfl⟩ := Nat.exists_eq_add_of_le' (by omega : 1 ≤ steps)
  rw [Stmt.tokens] at enough ⊢
  have ran := reads.block p after.settled (by omega : _ ≤ steps)
  have head : (prepend (braced p (Stmt.blockTokens spell body)) rest).current =
      ofSign .openBrace p := rfl
  simp only [Parser.statement, current_bind, head, ofSign]
  rw [bind_of_ok ran]
  rfl

/-- A condition in parentheses, and what is read behind it. -/
theorem reads_condition (condition : Expr) {later : Expr → Reader Stmt} (settled : rest.Settled)
    (enough : 8 * (grouped (condition.plain spell true)).length ≤ steps) :
    (do
      let _ ← expectSign .openParen
      let e ← expr true steps
      let _ ← expectSign .closeParen
      later e) (prepend (grouped (condition.plain spell true)) rest) = later condition rest := by
  simp only [grouped, List.length_append, List.length_cons, List.length_nil] at enough
  have closing : (Tape.next (mark .closeParen) rest).Ended true :=
    ended_of_closing rfl (.inl rfl) true rest
  have ran := reads_plain spell condition closing (by omega : _ ≤ steps)
  simp only [grouped, List.cons_append, prepend_cons, prepend_append, prepend_nil]
  rw [bind_of_ok (expectSign_next rfl (settled_before _ _ rest)), bind_of_ok ran,
    bind_of_ok (expectSign_next rfl settled)]

theorem ReadsStatements.branch {yes : List Stmt} (reads : ReadsStatements spell yes)
    (p : Position) (condition : Expr) :
    ReadsStatement spell (.branch p condition yes none) := by
  intro steps rest after _ enough
  obtain ⟨steps, rfl⟩ := Nat.exists_eq_add_of_le' (by omega : 1 ≤ steps)
  simp only [Stmt.tokens, List.length_append, List.length_cons] at enough
  have block := reads.block .start after.settled (by omega : _ ≤ steps)
  have settled := settled_prepend after.settled (braced .start (Stmt.blockTokens spell yes))
  simp only [Stmt.tokens, List.cons_append, prepend_cons, prepend_append, Parser.statement,
    current_bind, current_next, ofWord]
  rw [bind_of_ok (take_next (settled_prepend settled _)),
    reads_condition condition settled (by omega), bind_of_ok block,
    bind_of_ok (accept_other after.not_else)]
  rfl

theorem ReadsStatements.choice {yes no : List Stmt} (reads : ReadsStatements spell yes)
    (others : ReadsStatements spell no) (p : Position) (condition : Expr) :
    ReadsStatement spell (.branch p condition yes (some no)) := by
  intro steps rest after _ enough
  obtain ⟨steps, rfl⟩ := Nat.exists_eq_add_of_le' (by omega : 1 ≤ steps)
  simp only [Stmt.tokens, List.length_append, List.length_cons, List.length_nil] at enough
  have alternative := others.block .start after.settled (by omega : _ ≤ steps)
  have later := settled_prepend after.settled (braced .start (Stmt.blockTokens spell no))
  have between : (Tape.next (ofWord .else .start)
      (prepend (braced .start (Stmt.blockTokens spell no)) rest)).Settled := settled_next _ _
  have block := reads.block .start between (by omega : _ ≤ steps)
  have settled := settled_prepend between (braced .start (Stmt.blockTokens spell yes))
  have word : (ofWord .if p).kind = .keyword .if := rfl
  have otherwise : (ofWord .else .start).kind = .keyword .else := rfl
  simp only [Stmt.tokens, List.cons_append, prepend_cons, prepend_append, prepend_nil,
    Parser.statement, current_bind, current_next, word]
  rw [bind_of_ok (take_next (settled_prepend settled _)),
    reads_condition condition settled (by omega), bind_of_ok block,
    bind_of_ok (accept_next otherwise later), if_pos rfl, bind_of_ok alternative]
  rfl

theorem ReadsStatements.loop {body : List Stmt} (reads : ReadsStatements spell body)
    (p : Position) (start : LoopStart) (condition step : Option Expr) :
    ReadsStatement spell (.loop p start condition step body) := by
  intro steps rest after _ enough
  obtain ⟨steps, rfl⟩ := Nat.exists_eq_add_of_le' (by omega : 1 ≤ steps)
  simp only [Stmt.tokens, List.length_append, List.length_cons, List.length_nil] at enough
  have block := reads.block .start after.settled (by omega : _ ≤ steps)
  have settled := settled_prepend after.settled (braced .start (Stmt.blockTokens spell body))
  simp only [Stmt.tokens, List.cons_append, prepend_cons, prepend_append, prepend_nil,
    Parser.statement, current_bind, current_next, ofWord]
  rw [bind_of_ok (take_next (settled_next _ _)),
    bind_of_ok (expectSign_next rfl (settled_before _ _ _)),
    bind_of_ok (reads_start spell start rfl (by omega)),
    bind_of_ok (expectSign_next rfl (settled_before _ _ _)),
    bind_of_ok (reads_option spell condition (.inl rfl) rfl (by omega)),
    bind_of_ok (expectSign_next rfl (settled_before _ _ _)),
    bind_of_ok (reads_option spell step (.inr rfl) rfl (by omega)),
    bind_of_ok (expectSign_next rfl settled), bind_of_ok block]
  rfl

mutual

/-- Every statement whose blocks keep a `return` without a value for the end is read back. -/
theorem readsStatement (spell : Position → Float → String) :
    ∀ s, (∀ part ∈ s.parts, part.Orderly) → ReadsStatement spell s
  | .declare p name value, _ => readsStatement_declare p name value
  | .expr e, _ => readsStatement_expr e
  | .return p none, _ => readsStatement_bareReturn p
  | .return p (some e), _ => readsStatement_return p e
  | .branch p condition yes none, orderly => by
      obtain ⟨own, inside⟩ := List.forall_mem_cons.1 orderly
      have last := own yes (List.mem_cons_self ..)
      exact (readsStatements spell yes last inside).branch p condition
  | .branch p condition yes (some no), orderly => by
      obtain ⟨own, inside⟩ := List.forall_mem_cons.1 orderly
      obtain ⟨first, second⟩ := List.forall_mem_append.1 inside
      have last := own yes (List.mem_cons_self ..)
      have lastOther := own no (List.mem_cons_of_mem _ (List.mem_singleton.2 rfl))
      exact (readsStatements spell yes last first).choice
        (readsStatements spell no lastOther second) p condition
  | .loop p start condition step body, orderly => by
      obtain ⟨own, inside⟩ := List.forall_mem_cons.1 orderly
      have last := own body (List.mem_singleton.2 rfl)
      have rounds := (List.forall_mem_append.1 inside).2
      exact (readsStatements spell body last rounds).loop p start condition step
  | .block p body, orderly => by
      obtain ⟨own, inside⟩ := List.forall_mem_cons.1 orderly
      exact (readsStatements spell body (own body (List.mem_singleton.2 rfl)) inside).statement p

theorem readsStatements (spell : Position → Float → String) :
    ∀ body, Stmt.ReturnsLast body → (∀ part ∈ Stmt.blockParts body, part.Orderly) →
      ReadsStatements spell body
  | [], _, _ => readsStatements_nil
  | s :: body, last, orderly => by
      obtain ⟨first, others⟩ := List.forall_mem_append.1 orderly
      exact (readsStatement spell s first).cons (readsStatements spell body last.tail others) last

end

end Parser

end Script
