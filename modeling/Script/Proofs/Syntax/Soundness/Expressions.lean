/-
# Script.Proofs.Syntax.Soundness.Expressions -- expressions read stand in the text

A reader of the parser that ends with a tree has taken tokens that the grammar relates to
that tree (`Reader.Derives`).  The step from a number of steps to the next has one lemma
for each reader (`expr_succ`, `operation_succ`, ...); `Parser.sound` puts them together.

Loops carry what stands before them.  The loop over operators knows that everything to
its left is an operation of some level, and that the operator it looks at binds no
tighter than that level.
-/
import Script.Proofs.Syntax.Operators
import Script.Proofs.Syntax.Reading

namespace Script

set_option autoImplicit false

open Grammar Reader

/-- What the reader takes is a phrase of what it gives. -/
def Reader.Derives {α : Type} (x : Reader α) (Phrase : List Token → α → Prop) : Prop :=
  ∀ {tape a rest}, x tape = .ok (a, rest) → ∃ tokens, tape.Reads tokens rest ∧ Phrase tokens a

theorem Reader.derives_exhausted {α : Type} {Phrase : List Token → α → Prop} :
    (exhausted : Reader α).Derives Phrase := by
  intro tape a rest ran
  cases ran

namespace Grammar

/-- An operation of a level is one of any looser level. -/
theorem Operation.loosen {greater : Bool} {level : Nat} {tokens : List Token} {e : Expr} :
    ∀ {m : Nat}, level ≤ m → Operation greater m tokens e → Operation greater level tokens e := by
  intro m loose operation
  induction loose with
  | refl => exact operation
  | step _ ih => exact ih operation.tighter

/-- The tree is one that an assignment may change. -/
inductive Assignable : Expr → Prop where
  | name {p : Position} {word : String} : Assignable (.name p word)
  | index {p : Position} {list index : Expr} : Assignable (.index p list index)

/-
A name or an index is never the tree of an operator, so the tokens of it are a target all the way
down to the parentheses around it.
-/
mutual

theorem target_of_expression {greater : Bool} {tokens : List Token} {e : Expr}
    (assignable : Assignable e) : Expression greater tokens e → Target tokens e
  | .operation operation => target_of_operation assignable operation
  | .assign .. => by cases assignable
  | .setIndex .. => by cases assignable

theorem target_of_operation {greater : Bool} {level : Nat} {tokens : List Token} {e : Expr}
    (assignable : Assignable e) : Operation greater level tokens e → Target tokens e
  | .unary unary => target_of_unary assignable unary
  | .tighter operation => target_of_operation assignable operation
  | .binary .. => by cases assignable

theorem target_of_unary {tokens : List Token} {e : Expr}
    (assignable : Assignable e) : Unary tokens e → Target tokens e
  | .unary .. => by cases assignable
  | .plain operand => target_of_postfix assignable operand

theorem target_of_postfix {tokens : List Token} {e : Expr}
    (assignable : Assignable e) : Postfix tokens e → Target tokens e
  | .primary primary => target_of_primary assignable primary
  | .index target opens expression closes => .index target opens expression closes
  | .field .. => by cases assignable
  | .method .. => by cases assignable

theorem target_of_primary {tokens : List Token} {e : Expr}
    (assignable : Assignable e) : Primary tokens e → Target tokens e
  | .literal literal => by cases literal <;> cases assignable
  | .list .. => by cases assignable
  | .dict .. => by cases assignable
  | .name kind => .name kind
  | .call .. => by cases assignable
  | .group opens expression closes =>
      .group opens (target_of_expression assignable expression) closes

end

end Grammar

namespace Parser

/-- A phrase with a sign that has to stand behind it, and what is read after that. -/
theorem closed_ok {α β : Type} {x : Reader α} {Phrase : List Token → α → Prop}
    (derives : x.Derives Phrase) {close : Sign} {f : α → Reader β} {tape rest : Tape} {b : β}
    (ran : (x >>= fun a => expectSign close >>= fun _ => f a) tape = .ok (b, rest)) :
    ∃ a tokens closing mid, f a mid = .ok (b, rest) ∧ Phrase tokens a ∧
      closing.kind = .sign close ∧ tape.Reads (tokens ++ [closing]) mid := by
  obtain ⟨a, _, inside, ran⟩ := bind_ok ran
  obtain ⟨tokens, reads, phrase⟩ := derives inside
  obtain ⟨closing, mid, took, ran⟩ := bind_ok ran
  obtain ⟨closes, readClosing⟩ := expectSign_ok took
  exact ⟨a, tokens, closing, mid, ran, phrase, closes, reads.trans readClosing⟩

theorem literal_of_literal? {token : Token} {e : Expr} (found : literal? token = some e) :
    Literal token e ∧ token.kind ≠ .endOfInput := by
  unfold literal? at found
  split at found <;> cases found <;> rename_i kind <;> refine ⟨?_, by simp [kind]⟩
  · exact .number kind
  · exact .string kind
  · exact .typeName kind
  · exact .yes kind
  · exact .no kind
  · exact .null kind

/-- What the expression readers build within a number of steps stands in the text. -/
structure Sound (steps : Nat) : Prop where
  expr (greater : Bool) : (expr greater steps).Derives (Expression greater)
  operation {greater : Bool} {level : Nat} {tape : Tape} {e : Expr} {rest : Tape} :
    level ≤ 7 → operation greater level steps tape = .ok (e, rest) →
      ∃ tokens, tape.Reads tokens rest ∧ Operation greater level tokens e ∧
        LooserThan greater level rest
  operators {greater : Bool} {level m : Nat} {before : List Token} {left : Expr} {tape : Tape}
    {e : Expr} {rest : Tape} :
    level ≤ m → Operation greater m before left → LooserThan greater (m + 1) tape →
      operators greater level left steps tape = .ok (e, rest) →
        ∃ tokens, tape.Reads tokens rest ∧ Operation greater level (before ++ tokens) e ∧
          LooserThan greater level rest
  unary : (unary steps).Derives Unary
  accesses {before : List Token} {target : Expr} :
    Postfix before target →
      (accesses target steps).Derives fun tokens e => Postfix (before ++ tokens) e
  primary : (primary steps).Derives Primary
  arguments : (arguments steps).Derives Arguments
  items (close : Sign) : (items close steps).Derives (Listing (Expression true))
  moreItems {before : List Token} {first : Expr} :
    Expression true before first → (moreItems steps).Derives fun tokens items =>
      Separated (Expression true) (before ++ tokens) (first :: items)
  entries : (entries steps).Derives (Listing Entry)
  someEntries : (someEntries steps).Derives (Separated Entry)

variable {steps : Nat}

theorem expr_succ (sound : Sound steps) (greater : Bool) :
    (expr greater (steps + 1)).Derives (Expression greater) := by
  intro tape e rest ran
  simp only [expr] at ran
  obtain ⟨target, mid, left, ran⟩ := bind_ok ran
  obtain ⟨before, reads, operation, -⟩ := sound.operation (by decide) left
  rw [sees_bind] at ran
  split at ran
  case isFalse =>
    obtain ⟨rfl, rfl⟩ := pure_ok ran
    exact ⟨before, reads, .operation operation⟩
  case isTrue found =>
    have assigns := of_decide_eq_true found
    obtain ⟨sign, _, took, ran⟩ := bind_ok ran
    obtain ⟨rfl, readSign⟩ := take_ok took (by simp [assigns])
    obtain ⟨value, _, right, ran⟩ := bind_ok ran
    obtain ⟨after, readValue, expression⟩ := sound.expr greater right
    have all := (reads.trans readSign).trans readValue
    unfold assignment at ran
    obtain ⟨choice, shape, ran⟩ := chosen ran
    split at shape <;> subst shape
    case h_1 =>
      obtain ⟨rfl, rfl⟩ := pure_ok ran
      exact ⟨_, all, .assign (target_of_operation .name operation) assigns expression⟩
    case h_2 =>
      obtain ⟨rfl, rfl⟩ := pure_ok ran
      exact ⟨_, all, .setIndex (target_of_operation .index operation) assigns expression⟩
    case h_3 => cases ran

theorem operation_succ (sound : Sound steps) {greater : Bool} {level : Nat} {tape : Tape} {e : Expr}
    {rest : Tape} (bounded : level ≤ 7)
    (ran : operation greater level (steps + 1) tape = .ok (e, rest)) :
    ∃ tokens, tape.Reads tokens rest ∧ Operation greater level tokens e ∧
      LooserThan greater level rest := by
  simp only [operation] at ran
  obtain ⟨left, mid, first, ran⟩ := bind_ok ran
  obtain ⟨before, reads, unary⟩ := sound.unary first
  have looser : LooserThan greater (7 + 1) mid := by
    intro op _
    have := op.level_le
    omega
  obtain ⟨after, more, derived, stop⟩ := sound.operators bounded (.unary unary) looser ran
  exact ⟨before ++ after, reads.trans more, derived, stop⟩

theorem operators_succ (sound : Sound steps) {greater : Bool} {level m : Nat} {before : List Token}
    {left : Expr} {tape : Tape} {e : Expr} {rest : Tape} (loose : level ≤ m)
    (derived : Operation greater m before left) (looser : LooserThan greater (m + 1) tape)
    (ran : operators greater level left (steps + 1) tape = .ok (e, rest)) :
    ∃ tokens, tape.Reads tokens rest ∧ Operation greater level (before ++ tokens) e ∧
      LooserThan greater level rest := by
  simp only [operators, kind_bind] at ran
  obtain ⟨choice, shape, ran⟩ := chosen ran
  split at shape <;> subst shape
  case h_1 none =>
    obtain ⟨rfl, rfl⟩ := pure_ok ran
    refine ⟨[], .refl tape, ?_, fun op => BinaryOp.level_lt_of_atLevel? none⟩
    rw [List.append_nil]
    exact derived.loosen loose
  case h_2 op found =>
    obtain ⟨operator, tight⟩ := BinaryOp.atLevel?_eq_some found
    obtain ⟨kind, allowed⟩ := BinaryOp.sign_of_ofKind? operator
    obtain ⟨sign, _, took, ran⟩ := bind_ok ran
    obtain ⟨rfl, readSign⟩ := take_ok took (by simp [kind])
    obtain ⟨right, mid, second, ran⟩ := bind_ok ran
    have bounded : op.level + 1 ≤ 7 := Nat.succ_le_succ op.level_le
    obtain ⟨after, readRight, operand, stop⟩ := sound.operation bounded second
    -- what stands to the left binds at least as tightly as the operator, so it is its left operand
    have first := derived.loosen (Nat.lt_succ_iff.1 (looser op operator))
    have whole := Operation.binary first kind allowed operand
    obtain ⟨later, readLater, derived, stop⟩ := sound.operators tight whole stop ran
    refine ⟨_, (readSign.trans readRight).trans readLater, ?_, stop⟩
    simpa using derived

theorem unary_succ (sound : Sound steps) : (unary (steps + 1)).Derives Unary := by
  intro tape e rest ran
  simp only [unary, kind_bind] at ran
  obtain ⟨choice, shape, ran⟩ := chosen ran
  split at shape <;> subst shape
  case h_1 op found =>
    have kind := UnaryOp.sign_of_ofKind? found
    obtain ⟨sign, _, took, ran⟩ := bind_ok ran
    obtain ⟨rfl, readSign⟩ := take_ok took (by simp [kind])
    obtain ⟨operand, _, inner, ran⟩ := bind_ok ran
    obtain ⟨rfl, rfl⟩ := pure_ok ran
    obtain ⟨tokens, reads, derived⟩ := sound.unary inner
    exact ⟨_, readSign.trans reads, .unary kind derived⟩
  case h_2 =>
    obtain ⟨target, _, first, ran⟩ := bind_ok ran
    obtain ⟨before, reads, primary⟩ := sound.primary first
    obtain ⟨after, more, derived⟩ := sound.accesses (.primary primary) ran
    exact ⟨before ++ after, reads.trans more, .plain derived⟩

theorem accesses_succ (sound : Sound steps) {before : List Token} {target : Expr}
    (derived : Postfix before target) :
    (accesses target (steps + 1)).Derives fun tokens e => Postfix (before ++ tokens) e := by
  intro tape e rest ran
  simp only [accesses, kind_bind] at ran
  obtain ⟨choice, shape, ran⟩ := chosen ran
  split at shape <;> subst shape
  case h_1 opens =>
    obtain ⟨opening, _, took, ran⟩ := bind_ok ran
    obtain ⟨rfl, readOpening⟩ := take_ok took (by simp [opens])
    obtain ⟨index, tokens, closing, _, ran, expression, closes, readIndex⟩ :=
      closed_ok (sound.expr true) ran
    obtain ⟨later, more, derived⟩ :=
      sound.accesses (.index derived opens expression closes) ran
    refine ⟨_, (readOpening.trans readIndex).trans more, ?_⟩
    simpa using derived
  case h_2 points =>
    obtain ⟨dot, _, took, ran⟩ := bind_ok ran
    obtain ⟨rfl, readDot⟩ := take_ok took (by simp [points])
    obtain ⟨name, _, took, ran⟩ := bind_ok ran
    obtain ⟨names, readName⟩ := expectName_ok took
    rw [sees_bind] at ran
    split at ran
    case isTrue =>
      obtain ⟨args, _, inside, ran⟩ := bind_ok ran
      obtain ⟨tokens, readArgs, arguments⟩ := sound.arguments inside
      obtain ⟨later, more, derived⟩ :=
        sound.accesses (.method derived points names arguments) ran
      refine ⟨_, ((readDot.trans readName).trans readArgs).trans more, ?_⟩
      simpa using derived
    case isFalse =>
      obtain ⟨later, more, derived⟩ := sound.accesses (.field derived points names) ran
      refine ⟨_, (readDot.trans readName).trans more, ?_⟩
      simpa using derived
  case h_3 =>
    obtain ⟨rfl, rfl⟩ := pure_ok ran
    exact ⟨[], .refl tape, by simpa using derived⟩

theorem primary_succ (sound : Sound steps) : (primary (steps + 1)).Derives Primary := by
  intro tape e rest ran
  simp only [primary, current_bind] at ran
  obtain ⟨choice, shape, ran⟩ := chosen ran
  split at shape
  case h_1 found =>
    subst shape
    obtain ⟨literal, inside⟩ := literal_of_literal? found
    obtain ⟨token, _, took, ran⟩ := bind_ok ran
    obtain ⟨rfl, reads⟩ := take_ok took inside
    obtain ⟨rfl, rfl⟩ := pure_ok ran
    exact ⟨_, reads, .literal literal⟩
  case h_2 =>
    split at shape <;> subst shape
    case h_1 opens =>
      obtain ⟨opening, _, took, ran⟩ := bind_ok ran
      obtain ⟨rfl, readOpening⟩ := take_ok took (by simp [opens])
      obtain ⟨items, _, _, _, ran, listing, closes, readItems⟩ := closed_ok (sound.items _) ran
      obtain ⟨rfl, rfl⟩ := pure_ok ran
      exact ⟨_, readOpening.trans readItems, .list opens listing closes⟩
    case h_2 opens =>
      obtain ⟨opening, _, took, ran⟩ := bind_ok ran
      obtain ⟨rfl, readOpening⟩ := take_ok took (by simp [opens])
      obtain ⟨entries, _, _, _, ran, listing, closes, readEntries⟩ := closed_ok sound.entries ran
      obtain ⟨rfl, rfl⟩ := pure_ok ran
      exact ⟨_, readOpening.trans readEntries, .dict opens listing closes⟩
    case h_3 kind =>
      obtain ⟨token, _, took, ran⟩ := bind_ok ran
      obtain ⟨rfl, readName⟩ := take_ok took (by simp [kind])
      rw [sees_bind] at ran
      split at ran
      case isTrue =>
        obtain ⟨args, _, inside, ran⟩ := bind_ok ran
        obtain ⟨tokens, readArgs, arguments⟩ := sound.arguments inside
        obtain ⟨rfl, rfl⟩ := pure_ok ran
        exact ⟨_, readName.trans readArgs, .call kind arguments⟩
      case isFalse =>
        obtain ⟨rfl, rfl⟩ := pure_ok ran
        exact ⟨_, readName, .name kind⟩
    case h_4 opens =>
      obtain ⟨opening, _, took, ran⟩ := bind_ok ran
      obtain ⟨rfl, readOpening⟩ := take_ok took (by simp [opens])
      obtain ⟨inner, _, _, _, ran, expression, closes, readInner⟩ := closed_ok (sound.expr true) ran
      obtain ⟨rfl, rfl⟩ := pure_ok ran
      exact ⟨_, readOpening.trans readInner, .group opens expression closes⟩
    case h_5 => cases ran

theorem arguments_succ (sound : Sound steps) : (arguments (steps + 1)).Derives Arguments := by
  intro tape args rest ran
  simp only [arguments] at ran
  obtain ⟨opening, _, took, ran⟩ := bind_ok ran
  obtain ⟨opens, readOpening⟩ := expectSign_ok took
  obtain ⟨items, _, _, _, ran, listing, closes, readItems⟩ := closed_ok (sound.items _) ran
  obtain ⟨rfl, rfl⟩ := pure_ok ran
  exact ⟨_, readOpening.trans readItems, .parens opens listing closes⟩

theorem items_succ (sound : Sound steps) (close : Sign) :
    (items close (steps + 1)).Derives (Listing (Expression true)) := by
  intro tape es rest ran
  simp only [items, sees_bind] at ran
  split at ran
  case isTrue =>
    obtain ⟨rfl, rfl⟩ := pure_ok ran
    exact ⟨[], .refl tape, .none⟩
  case isFalse =>
    obtain ⟨first, _, begins, ran⟩ := bind_ok ran
    obtain ⟨before, reads, expression⟩ := sound.expr true begins
    obtain ⟨others, _, follows, ran⟩ := bind_ok ran
    obtain ⟨after, more, separated⟩ := sound.moreItems expression follows
    obtain ⟨rfl, rfl⟩ := pure_ok ran
    exact ⟨before ++ after, reads.trans more, .some separated⟩

theorem moreItems_succ (sound : Sound steps) {before : List Token} {first : Expr}
    (expression : Expression true before first) :
    (moreItems (steps + 1)).Derives fun tokens items =>
      Separated (Expression true) (before ++ tokens) (first :: items) := by
  intro tape es rest ran
  simp only [moreItems] at ran
  obtain ⟨accepted, _, accepts, ran⟩ := bind_ok ran
  rcases accept_ok (by simp) accepts with ⟨rfl, comma, separates, readComma⟩ | ⟨rfl, rfl, -⟩
  · obtain ⟨item, _, begins, ran⟩ := bind_ok ran
    obtain ⟨tokens, reads, next⟩ := sound.expr true begins
    obtain ⟨others, _, follows, ran⟩ := bind_ok ran
    obtain ⟨after, more, separated⟩ := sound.moreItems next follows
    obtain ⟨rfl, rfl⟩ := pure_ok ran
    refine ⟨_, (readComma.trans reads).trans more, ?_⟩
    simpa using Separated.more expression separates separated
  · obtain ⟨rfl, rfl⟩ := pure_ok ran
    exact ⟨[], .refl tape, by simpa using Separated.last expression⟩

theorem entries_succ (sound : Sound steps) : (entries (steps + 1)).Derives (Listing Entry) := by
  intro tape es rest ran
  simp only [entries, sees_bind] at ran
  split at ran
  case isTrue =>
    obtain ⟨rfl, rfl⟩ := pure_ok ran
    exact ⟨[], .refl tape, .none⟩
  case isFalse =>
    obtain ⟨tokens, reads, separated⟩ := sound.someEntries ran
    exact ⟨tokens, reads, .some separated⟩

theorem entryKey_ok {tape : Tape} {key : EntryKey} {rest : Tape}
    (ran : someEntries.entryKey tape = .ok (key, rest)) :
    ∃ token, tape.Reads [token] rest ∧ Key token key := by
  simp only [someEntries.entryKey, kind_bind] at ran
  obtain ⟨choice, shape, ran⟩ := chosen ran
  split at shape <;> subst shape
  case h_1 kind =>
    obtain ⟨token, _, took, ran⟩ := bind_ok ran
    obtain ⟨rfl, reads⟩ := take_ok took (by simp [kind])
    obtain ⟨rfl, rfl⟩ := pure_ok ran
    exact ⟨_, reads, .literal kind⟩
  case h_2 kind =>
    obtain ⟨token, _, took, ran⟩ := bind_ok ran
    obtain ⟨rfl, reads⟩ := take_ok took (by simp [kind])
    obtain ⟨rfl, rfl⟩ := pure_ok ran
    exact ⟨_, reads, .name kind⟩
  case h_3 => cases ran

theorem someEntries_succ (sound : Sound steps) :
    (someEntries (steps + 1)).Derives (Separated Entry) := by
  intro tape es rest ran
  simp only [someEntries] at ran
  obtain ⟨key, _, begins, ran⟩ := bind_ok ran
  obtain ⟨token, readKey, keyed⟩ := entryKey_ok begins
  obtain ⟨colon, _, took, ran⟩ := bind_ok ran
  obtain ⟨separates, readColon⟩ := expectSign_ok took
  obtain ⟨value, _, right, ran⟩ := bind_ok ran
  obtain ⟨tokens, readValue, expression⟩ := sound.expr false right
  have reads := (readKey.trans readColon).trans readValue
  have entry := Entry.entry keyed separates expression
  obtain ⟨accepted, _, accepts, ran⟩ := bind_ok ran
  rcases accept_ok (by simp) accepts with ⟨rfl, comma, separates, readComma⟩ | ⟨rfl, rfl, -⟩
  · obtain ⟨others, _, follows, ran⟩ := bind_ok ran
    obtain ⟨after, more, separated⟩ := sound.someEntries follows
    obtain ⟨rfl, rfl⟩ := pure_ok ran
    exact ⟨_, (reads.trans readComma).trans more, .more entry separates separated⟩
  · obtain ⟨rfl, rfl⟩ := pure_ok ran
    exact ⟨_, reads, .last entry⟩

theorem sound : ∀ steps, Sound steps
  | 0 =>
      { expr := fun _ => derives_exhausted
        operation := fun _ ran => by cases ran
        operators := fun _ _ _ ran => by cases ran
        unary := derives_exhausted
        accesses := fun _ => derives_exhausted
        primary := derives_exhausted
        arguments := derives_exhausted
        items := fun _ => derives_exhausted
        moreItems := fun _ => @derives_exhausted _ _
        entries := derives_exhausted
        someEntries := derives_exhausted }
  | steps + 1 =>
      have sound := sound steps
      { expr := expr_succ sound
        operation := operation_succ sound
        operators := operators_succ sound
        unary := unary_succ sound
        accesses := accesses_succ sound
        primary := primary_succ sound
        arguments := arguments_succ sound
        items := items_succ sound
        moreItems := moreItems_succ sound
        entries := entries_succ sound
        someEntries := someEntries_succ sound }

end Parser

end Script
