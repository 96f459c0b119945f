/-
# Script.Proofs.Syntax.Runs -- a reader at work, token by token

`Run x tape tokens rest outcome` takes a run of a reader apart: it looks at the current token,
takes it, or fails, one after the other.  The tokens are those it has taken by then, also when it
fails, and `rest` is where it stands.  A run takes tokens that are there, never the one for the
end, so it takes no more of them than the tape holds (`Run.length_eq`).

What a run does depends on the tokens it takes and on the one it looks at last
(`Run.elsewhere`); each of them it has asked for, since a fault in its place is what the reader
fails with (`Run.cut`).

`Finishes` is the form in which runs are put together: with enough steps a reader does not end
for want of them, with more steps it does the same, and it ends with a value only after a number
of tokens.
-/
import Script.Proofs.Syntax.Steps

namespace Script

set_option autoImplicit false

namespace Fault

/-- The faults a parser finds itself: those against the grammar, and a value assigned to what cannot
hold one. -/
def Grammatical (fault : Fault) : Prop :=
  fault.category = .syntactic ∨ fault = .invalidAssignmentTarget

theorem Grammatical.not_lexical {fault : Fault} (grammatical : fault.Grammatical) :
    fault.category ≠ .lexical := by
  rcases grammatical with syntactic | rfl
  · simp [syntactic]
  · simp [category]

end Fault

namespace Tape

/-- Both tapes bring up the same: the same token, the same end or the same fault. -/
def SameHead : Tape → Tape → Prop
  | .next token _, .next other _ => token = other
  | tape, other => tape = other

variable {tape other : Tape}

theorem SameHead.current_eq (same : tape.SameHead other) : other.current = tape.current := by
  cases tape <;> cases other <;> first | exact Eq.symm same | cases same <;> rfl

theorem SameHead.settled (same : tape.SameHead other) (settled : tape.Settled) : other.Settled := by
  cases tape <;> cases other <;> first | exact rfl | cases same <;> exact settled

theorem sameHead_prepend {rest rest' : Tape} (same : rest.SameHead rest') :
    ∀ tokens, (prepend tokens rest).SameHead (prepend tokens rest')
  | [] => same
  | _ :: _ => rfl

end Tape

namespace Reader

/-- The reader takes the tokens from the tape, stands before the rest and ends with the outcome. -/
inductive Run : {α : Type} → Reader α → Tape → List Token → Tape → Except Stop α → Prop
  | value {α : Type} (a : α) (tape : Tape) : Run (pure a) tape [] tape (.ok a)
  | look {α : Type} (see : Token → α) (tape : Tape) :
      Run (fun tape => .ok (see tape.current, tape)) tape [] tape (.ok (see tape.current))
  | fail {α : Type} (failure : Token → Failure)
      (grammatical : ∀ token, (failure token).fault.Grammatical) (tape : Tape) :
      Run (fun tape => .error (.failed (failure tape.current)) : Reader α) tape [] tape
        (.error (.failed (failure tape.current)))
  | exhausted {α : Type} (tape : Tape) :
      Run (exhausted : Reader α) tape [] tape (.error .exhausted)
  | take (token : Token) {rest : Tape} (settled : rest.Settled) :
      Run take (.next token rest) [token] rest (.ok token)
  | fault (token : Token) (cause : Fault) (position : Position) :
      Run take (.next token (.fault cause position)) [token] (.fault cause position)
        (.error (.failed (.ofFault cause position)))
  | bind {α β : Type} {x : Reader α} {f : α → Reader β} {tape mid rest : Tape}
      {tokens later : List Token} {a : α} {outcome : Except Stop β}
      (first : Run x tape tokens mid (.ok a)) (second : Run (f a) mid later rest outcome) :
      Run (x >>= f) tape (tokens ++ later) rest outcome
  | stop {α β : Type} {x : Reader α} {f : α → Reader β} {tape rest : Tape} {tokens : List Token}
      {stop : Stop} (first : Run x tape tokens rest (.error stop)) :
      Run (x >>= f) tape tokens rest (.error stop)

theorem bind_of_error {α β : Type} {x : Reader α} {f : α → Reader β} {tape : Tape} {stop : Stop}
    (failed : x tape = .error stop) : (x >>= f) tape = .error stop := by
  change (x tape >>= fun p => f p.1 p.2) = _
  rw [failed]
  rfl

namespace Run

variable {α : Type} {x : Reader α} {tape rest : Tape} {tokens : List Token}
  {outcome : Except Stop α}

/-- What the run takes apart is what the reader does. -/
theorem eq (run : Run x tape tokens rest outcome) : x tape = outcome.map (·, rest) := by
  induction run with
  | take token settled => exact take_next settled
  | bind _ _ first second => exact (bind_of_ok first).trans second
  | stop _ first => exact bind_of_error first
  | _ => rfl

theorem whole (run : Run x tape tokens rest outcome) : tape = Tape.prepend tokens rest := by
  induction run with
  | bind _ _ first second => rw [first, second, Tape.prepend_append]
  | stop _ first => exact first
  | _ => rfl

/-- A token is taken once, and the end of the text never. -/
theorem length_eq (run : Run x tape tokens rest outcome) :
    tokens.length + rest.length = tape.length := by
  rw [run.whole, Tape.length_prepend]

theorem settled (run : Run x tape tokens rest outcome) {a : α} (ended : outcome = .ok a)
    (settled : tape.Settled) : rest.Settled := by
  induction run with
  | take token after => exact after
  | bind _ _ first second => exact second ended (first rfl settled)
  | fault => cases ended
  | stop => cases ended
  | _ => exact settled

/-- A run that begins before a token ends before one, or with the fault it comes to: all other
failures are the parser's own. -/
theorem ending (run : Run x tape tokens rest outcome) (settled : tape.Settled) :
    (∃ cause position, rest = .fault cause position ∧
      outcome = .error (.failed (.ofFault cause position))) ∨
    (rest.Settled ∧ ∀ failure, outcome = .error (.failed failure) → failure.fault.Grammatical) := by
  induction run with
  | value | look | exhausted => exact .inr ⟨settled, by simp⟩
  | fail failure grammatical tape =>
      refine .inr ⟨settled, fun other same => ?_⟩
      cases same
      exact grammatical tape.current
  | take token after => exact .inr ⟨after, by simp⟩
  | fault token cause position => exact .inl ⟨cause, position, rfl, rfl⟩
  | bind first _ _ secondEnding => exact secondEnding (first.settled rfl settled)
  | stop _ ending =>
      rcases ending settled with ⟨cause, position, rfl, same⟩ | ⟨after, grammatical⟩
      · cases same
        exact .inl ⟨cause, position, rfl, rfl⟩
      · refine .inr ⟨after, fun failure same => ?_⟩
        cases same
        exact grammatical failure rfl

/-- With the same token behind those it takes the reader does the same. -/
theorem elsewhere (run : Run x tape tokens rest outcome) {rest' : Tape}
    (same : rest.SameHead rest') : Run x (Tape.prepend tokens rest') tokens rest' outcome := by
  induction run generalizing rest' with
  | value a tape => exact .value a rest'
  | look see tape =>
      rw [← same.current_eq]
      exact .look see rest'
  | fail failure grammatical tape =>
      rw [← same.current_eq]
      exact .fail failure grammatical rest'
  | exhausted tape => exact .exhausted rest'
  | take token settled => exact .take token (same.settled settled)
  | fault token cause position =>
      cases rest' with
      | next token rest => cases same
      | endOfInput position => cases same
      | fault cause position =>
          cases same
          exact .fault token cause position
  | bind first second firstElsewhere secondElsewhere =>
      rw [Tape.prepend_append]
      have later := secondElsewhere same
      refine .bind (firstElsewhere ?_) later
      rw [second.whole]
      exact Tape.sameHead_prepend same _
  | stop _ elsewhere => exact .stop (elsewhere same)

/-- A fault right behind a token that is taken is what the reader fails with. -/
theorem cut (run : Run x tape tokens rest outcome) {before after : List Token} {token : Token}
    (taken : tokens = before ++ token :: after) (cause : Fault) (position : Position) :
    x (Tape.prepend before (.next token (.fault cause position))) =
      .error (.failed (.ofFault cause position)) := by
  induction run generalizing before after with
  | take | fault =>
      cases before with
      | nil =>
          obtain ⟨rfl, -⟩ := List.cons.inj taken
          rfl
      | cons first before => simp at taken
  | @bind _ _ _ _ _ mid rest tokens later a outcome first second firstCut secondCut =>
      have inBoth : before ++ [token] <+: tokens ++ later := ⟨after, by simp [taken]⟩
      rcases Nat.lt_or_ge before.length tokens.length with inside | behind
      · have short : (before ++ [token]).length ≤ tokens.length := by
          rwa [List.length_append, List.length_singleton]
        obtain ⟨between, rfl⟩ :=
          List.prefix_of_prefix_length_le inBoth (List.prefix_append tokens later) short
        exact bind_of_error (firstCut (List.append_cons before token between).symm)
      · obtain ⟨between, rfl⟩ := List.prefix_of_prefix_length_le (List.prefix_append tokens later)
          (taken ▸ List.prefix_append before (token :: after)) behind
        rw [List.append_assoc, List.append_cancel_left_eq] at taken
        have head : mid.SameHead (.prepend between (.next token (.fault cause position))) := by
          rw [second.whole, taken, Tape.prepend_append]
          refine Tape.sameHead_prepend ?_ between
          exact rfl
        rw [Tape.prepend_append, bind_of_ok (first.elsewhere head).eq]
        exact secondCut taken
  | stop _ ih => exact bind_of_error (ih taken)
  | _ => simp at taken

end Run

/-- With enough steps for it the reader does not end for want of them, and the second reader, which
has more, does the same.  A value comes only after so many tokens. -/
def Finishes {α : Type} (enough : Prop) (least : α → Nat) (x y : Reader α) (tape : Tape) : Prop :=
  ∃ tokens rest outcome, Run x tape tokens rest outcome ∧
    (enough → outcome ≠ .error .exhausted) ∧
    (outcome ≠ .error .exhausted → Run y tape tokens rest outcome) ∧
    ∀ a, outcome = .ok a → least a ≤ tokens.length

/-- So many tokens at least, whatever the value is. -/
abbrev atLeast {α : Type} (count : Nat) : α → Nat := fun _ => count

section

variable {α β : Type} {enough : Prop} {least : α → Nat} {needed : β → Nat} {x y : Reader α}
  {f g : α → Reader β} {tape : Tape}

theorem Finishes.imp {enough' : Prop} {least' : α → Nat}
    (finishes : Finishes enough least x y tape) (covers : enough' → enough)
    (fewer : ∀ a, least' a ≤ least a) : Finishes enough' least' x y tape := by
  obtain ⟨tokens, rest, outcome, run, ends, again, taken⟩ := finishes
  exact ⟨tokens, rest, outcome, run, fun more => ends (covers more), again,
    fun a ended => Nat.le_trans (fewer a) (taken a ended)⟩

theorem Finishes.weaken {enough' : Prop} (finishes : Finishes enough least x y tape)
    (covers : enough' → enough) : Finishes enough' least x y tape :=
  finishes.imp covers fun a => Nat.le_refl (least a)

/-- What a reader has taken need not be counted. -/
theorem Finishes.uncounted {enough' : Prop} (finishes : Finishes enough least x y tape)
    (covers : enough' → enough) : Finishes enough' (atLeast 0) x y tape :=
  finishes.imp covers fun a => Nat.zero_le (least a)

theorem finishes_pure {a : α} (none : least a = 0) :
    Finishes enough least (pure a) (pure a) tape := by
  refine ⟨[], tape, .ok a, .value a tape, by simp, fun _ => .value a tape, fun b same => ?_⟩
  cases same
  exact Nat.le_of_eq none

theorem finishes_failing (failure : Token → Failure)
    (grammatical : ∀ token, (failure token).fault.Grammatical) :
    Finishes enough least (fun tape => .error (.failed (failure tape.current)))
      (fun tape => .error (.failed (failure tape.current))) tape :=
  ⟨[], tape, _, .fail failure grammatical tape, by simp, fun _ => .fail failure grammatical tape,
    by simp⟩

theorem finishes_fail {cause : Token.Kind → Fault}
    (grammatical : ∀ kind, (cause kind).Grammatical) :
    Finishes enough least (fail cause) (fail cause) tape :=
  finishes_failing (fun token => .ofFault (cause token.kind) token.position)
    fun token => grammatical token.kind

theorem finishes_failAt {position : Position} {cause : Fault} (grammatical : cause.Grammatical) :
    Finishes enough least (failAt position cause) (failAt position cause) tape :=
  finishes_failing (fun _ => .ofFault cause position) fun _ => grammatical

theorem finishes_exhausted (short : ¬ enough) : Finishes enough least exhausted y tape :=
  ⟨[], tape, _, .exhausted tape, fun more => absurd more short, fun never => absurd rfl never,
    by simp⟩

theorem Finishes.bind {least : Nat} (first : Finishes enough (atLeast least) x y tape)
    (second : ∀ a mid, least + mid.length ≤ tape.length →
      Finishes enough (fun b => needed b - least) (f a) (g a) mid) :
    Finishes enough needed (x >>= f) (y >>= g) tape := by
  obtain ⟨tokens, mid, outcome, run, ends, again, taken⟩ := first
  cases outcome with
  | error stop =>
      exact ⟨tokens, mid, _, .stop run, fun enough => by simpa using ends enough,
        fun finished => .stop (again (by simpa using finished)), by simp⟩
  | ok a =>
      have counted := run.length_eq
      have counts : least ≤ tokens.length := taken a rfl
      obtain ⟨later, rest, outcome, runLater, endsLater, againLater, takenLater⟩ :=
        second a mid (by omega)
      refine ⟨tokens ++ later, rest, outcome, .bind run runLater, endsLater,
        fun finished => .bind (again (by simp)) (againLater finished), fun b ended => ?_⟩
      have furtherAtLeast : needed b - least ≤ later.length := takenLater b ended
      rw [List.length_append]
      omega

/-- Looking at the current token takes nothing. -/
theorem finishes_look (see : Token → α) (here : Finishes enough needed (f (see tape.current))
      (g (see tape.current)) tape) :
    Finishes enough needed ((fun tape => .ok (see tape.current, tape)) >>= f)
      ((fun tape => .ok (see tape.current, tape)) >>= g) tape := by
  obtain ⟨tokens, rest, outcome, run, ends, again, taken⟩ := here
  exact ⟨tokens, rest, outcome, .bind (.look see tape) run, ends,
    fun finished => .bind (.look see tape) (again finished), taken⟩

theorem finishes_current {f g : Token → Reader β}
    (here : Finishes enough needed (f tape.current) (g tape.current) tape) :
    Finishes enough needed (current >>= f) (current >>= g) tape :=
  finishes_look id here

theorem finishes_kind {f g : Token.Kind → Reader β}
    (here : Finishes enough needed (f tape.current.kind) (g tape.current.kind) tape) :
    Finishes enough needed (kind >>= f) (kind >>= g) tape :=
  finishes_look Token.kind here

theorem finishes_sees {sign : Sign} {f g : Bool → Reader β}
    (yes : tape.current.kind = .sign sign → Finishes enough needed (f true) (g true) tape)
    (no : Finishes enough needed (f false) (g false) tape) :
    Finishes enough needed (sees sign >>= f) (sees sign >>= g) tape := by
  refine finishes_look (fun token => decide (token.kind = .sign sign)) ?_
  by_cases found : tape.current.kind = .sign sign
  · simpa [found] using yes found
  · simpa [found] using no

/-- A token that is there can be taken, or what stands behind it is a fault. -/
theorem finishes_take (inside : tape.current.kind ≠ .endOfInput) :
    Finishes enough (atLeast 1) take take tape := by
  cases tape with
  | endOfInput position => exact absurd rfl inside
  | fault cause position => exact absurd rfl inside
  | next token rest =>
      cases rest with
      | fault cause position =>
          exact ⟨[token], _, _, .fault token cause position, by simp,
            fun _ => .fault token cause position, by simp⟩
      | _ =>
          exact ⟨[token], _, _, .take token rfl, by simp, fun _ => .take token rfl, by simp⟩

theorem finishes_expect {wanted : Token.Kind} (inside : wanted ≠ .endOfInput) :
    Finishes enough (atLeast 1) (expect wanted) (expect wanted) tape := by
  refine finishes_kind ?_
  by_cases found : tape.current.kind = wanted
  · rw [if_pos found]
    exact finishes_take (found ▸ inside)
  · rw [if_neg found]
    exact finishes_fail fun _ => .inl rfl

theorem finishes_expectSign (sign : Sign) :
    Finishes enough (atLeast 1) (expectSign sign) (expectSign sign) tape :=
  finishes_expect (by simp)

theorem finishes_expectWord (word : Keyword) :
    Finishes enough (atLeast 1) (expectWord word) (expectWord word) tape :=
  finishes_expect (by simp)

theorem finishes_expectName : Finishes enough (atLeast 1) expectName expectName tape :=
  finishes_expect (by simp)

theorem finishes_accept {wanted : Token.Kind} {f g : Bool → Reader β}
    (inside : wanted ≠ .endOfInput)
    (yes : ∀ mid, 1 + mid.length ≤ tape.length →
      Finishes enough (fun b => needed b - 1) (f true) (g true) mid)
    (no : Finishes enough needed (f false) (g false) tape) :
    Finishes enough needed (accept wanted >>= f) (accept wanted >>= g) tape := by
  simp only [accept, bind_assoc]
  refine finishes_kind ?_
  by_cases found : tape.current.kind = wanted
  · simp only [if_pos found, bind_assoc, pure_bind]
    exact (finishes_take (found ▸ inside)).bind fun _ mid fewer => yes mid fewer
  · simp only [if_neg found, pure_bind]
    exact no

end

end Reader

end Script
