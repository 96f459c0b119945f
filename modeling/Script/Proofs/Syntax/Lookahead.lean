/-
# Script.Proofs.Syntax.Lookahead -- which fault reading reports, and how far it looks

Tokens are brought up one at a time, so a fault in the text counts only when a reader gets there.
`Program.Asks tape count` says that reading a program asks for what stands behind so many tokens:
it fails with whatever fault is put there.  A reading that fails has taken some tokens and stands
before one more, or before the fault (`FailsAt`).  It asks for these and for nothing else, and on
every tape that brings them up it fails in the same way.

A parser reports the place of a token that it has seen (`FailsAt.place`): if all of these were
elsewhere, so would be the failure.  So its own faults come before the fault of the text, and the
main statement `Program.fault_of_lookahead` follows.
-/
import Mathlib
import Script.Proofs.Relocate.Parser
import Script.Proofs.Syntax.Soundness.Program
import Script.Proofs.Syntax.Termination
import Script.Proofs.Tape.Joined

namespace Script

set_option autoImplicit false

open Reader

namespace Tape

/-- The tape with a fault in place of what stands behind so many tokens, if it holds so many. -/
def cutAt (count : Nat) (cause : Fault) (position : Position) : Tape → Tape
  | .next token rest =>
      match count with
      | 0 => .fault cause position
      | count + 1 => .next token (rest.cutAt count cause position)
  | tape => if count = 0 then .fault cause position else tape

section

variable {tape rest other : Tape} {tokens : List Token} {cause : Fault} {position : Position}

@[simp] theorem cutAt_zero (tape : Tape) : tape.cutAt 0 cause position = .fault cause position := by
  cases tape <;> rfl

theorem cutAt_prepend (tokens : List Token) (rest : Tape) (count : Nat) :
    (prepend tokens rest).cutAt (tokens.length + count) cause position =
      prepend tokens (rest.cutAt count cause position) := by
  induction tokens with
  | nil => simp
  | cons token tokens ih =>
      rw [List.length_cons, Nat.add_right_comm, prepend_cons, cutAt, ih, prepend_cons]

/-- A fault right behind a token. -/
theorem cutAt_behind (before after : List Token) (token : Token) (rest : Tape) :
    (prepend (before ++ token :: after) rest).cutAt (before.length + 1) cause position =
      prepend before (.next token (.fault cause position)) := by
  rw [prepend_append, cutAt_prepend, prepend_cons, cutAt, cutAt_zero]

/-- A fault further behind does not change what a tape brings up. -/
theorem sameHead_cutAt (rest : Tape) (count : Nat) :
    rest.SameHead (rest.cutAt (count + 1) cause position) := by
  cases rest <;> exact rfl

/-- The tape with nothing behind its first token. -/
def alone : Tape → Tape
  | .next token _ => .next token (.endOfInput token.position)
  | tape => tape

theorem sameHead_alone (rest : Tape) : rest.SameHead rest.alone := by
  cases rest <;> exact rfl

/-- Tokens that are all where they should be stay there. -/
theorem relocate_alone {move : Position → Position} (settled : rest.Settled)
    (still : ∀ token ∈ tokens ++ [rest.current], move token.position = token.position) :
    (prepend tokens rest.alone).relocate move = prepend tokens rest.alone := by
  induction tokens with
  | nil =>
      have here : move rest.current.position = rest.current.position := still _ (by simp)
      cases rest with
      | fault cause position => cases settled
      | _ => simp_all [alone, relocate, Token.relocate, current, Token.endOfInput]
  | cons token tokens ih =>
      have here : move token.position = token.position := still token (by simp)
      rw [prepend_cons, relocate, Token.relocate, here,
        ih fun later member => still later (List.mem_cons_of_mem token member)]

theorem map_cons_injective {token : Token} {first second : Except Failure (List Token)}
    (same : first.map (token :: ·) = second.map (token :: ·)) : first = second := by
  cases first <;> cases second <;> simp_all [Except.map]

theorem nextTokens_next (token : Token) (rest : Tape) (count : Nat) :
    (next token rest).nextTokens (count + 1) = (rest.nextTokens count).map (token :: ·) := by
  change (rest.nextTokens count >>= _) = _
  cases rest.nextTokens count <;> rfl

theorem nextTokens_one (tape : Tape) :
    tape.nextTokens 1 = tape.nextToken.map fun brought => [brought.1] := by
  cases tape <;> rfl

theorem nextTokens_prepend (tokens : List Token) (rest : Tape) (count : Nat) :
    (prepend tokens rest).nextTokens (tokens.length + count) =
      (rest.nextTokens count).map (tokens ++ ·) := by
  induction tokens with
  | nil =>
      rw [List.length_nil, Nat.zero_add, prepend_nil]
      cases rest.nextTokens count <;> rfl
  | cons token tokens ih =>
      rw [List.length_cons, Nat.add_right_comm, prepend_cons, nextTokens_next, ih]
      cases rest.nextTokens count <;> rfl

/-- What a tape brings up tells its head, as no token on it stands for the end. -/
theorem sameHead_of_nextTokens (genuine : rest.Genuine) (own : other.Genuine)
    (same : other.nextTokens 1 = rest.nextTokens 1) : rest.SameHead other := by
  simp only [nextTokens_one] at same
  cases rest with
  | next token behind =>
      cases other with
      | next found _ => exact (List.cons.inj (Except.ok.inj same)).1.symm
      | endOfInput position =>
          obtain ⟨rfl, -⟩ := List.cons.inj (Except.ok.inj same)
          exact absurd rfl genuine.1
      | fault cause position => cases same
  | endOfInput position =>
      cases other with
      | next found _ =>
          obtain ⟨rfl, -⟩ := List.cons.inj (Except.ok.inj same)
          exact absurd rfl own.1
      | endOfInput ending =>
          cases same
          exact rfl
      | fault cause position => cases same
  | fault cause position =>
      cases other with
      | fault cause position =>
          cases same
          exact rfl
      | _ => cases same

/-- A tape that brings up the same at every request up to the one behind some tokens begins with
these tokens. -/
theorem prepend_of_nextTokens (genuine : (prepend tokens rest).Genuine) (own : other.Genuine)
    (same : ∀ count ≤ tokens.length + 1,
      other.nextTokens count = (prepend tokens rest).nextTokens count) :
    ∃ rest', other = prepend tokens rest' ∧ rest.SameHead rest' := by
  induction tokens generalizing other with
  | nil => exact ⟨other, rfl, sameHead_of_nextTokens genuine own (same 1 (Nat.le_refl 1))⟩
  | cons token tokens ih =>
      have head := sameHead_of_nextTokens genuine own (same 1 (by simp))
      cases other with
      | next found behind =>
          cases head
          obtain ⟨rest', rfl, head⟩ := ih genuine.2 own.2 fun count fewer => by
            have further := same (count + 1) (by simpa using fewer)
            rw [prepend_cons, nextTokens_next, nextTokens_next] at further
            exact map_cons_injective further
          exact ⟨rest', rfl, head⟩
      | _ => cases head

end

end Tape

namespace Reader

/-- A reader comes to one end only. -/
theorem Run.outcome_unique {α : Type} {x : Reader α} {tape rest rest' : Tape}
    {tokens tokens' : List Token} {outcome outcome' : Except Stop α}
    (first : Run x tape tokens rest outcome) (second : Run x tape tokens' rest' outcome') :
    outcome = outcome' := by
  have same := first.eq.symm.trans second.eq
  cases outcome <;> cases outcome' <;> simp_all [Except.map]

end Reader

namespace Program

variable {tape rest : Tape} {tokens : List Token} {failure : Failure}

/-- With whatever number of steps a program is read to its end, it is what the tape holds. -/
theorem ofTape_of_run {steps : Nat} {outcome : Except Stop Program} (settled : tape.Settled)
    (run : Run (Parser.program .empty steps) tape tokens rest outcome)
    (ends : outcome ≠ .error .exhausted) : ofTape tape = outcome := by
  obtain ⟨_, _, rfl, -⟩ | ⟨-, _, _, outcome', run', ends', same⟩ := ofTape_run tape
  · cases settled
  rw [same]
  rcases Nat.le_total steps (8 * tape.length + 8) with fewer | more
  · obtain ⟨_, _, found, few, -, again, -⟩ := Parser.finishes_program .empty fewer tape
    obtain rfl := few.outcome_unique run
    exact run'.outcome_unique (again ends)
  · obtain ⟨_, _, found, few, -, again, -⟩ := Parser.finishes_program .empty more tape
    obtain rfl := few.outcome_unique run'
    exact (again ends').outcome_unique run

theorem ofTape_of_program {steps : Nat} {stop : Stop} (settled : tape.Settled)
    (ran : Parser.program .empty steps tape = .error stop) (ends : stop ≠ .exhausted) :
    ofTape tape = .error stop := by
  obtain ⟨tokens, rest, outcome, run, -⟩ :=
    Parser.finishes_program .empty (Nat.le_refl steps) tape
  have same := run.eq.symm.trans ran
  cases outcome with
  | ok p => cases same
  | error other =>
      cases same
      exact ofTape_of_run settled run (by simpa using ends)

/-- Reading a program asks for what stands behind so many tokens: it fails with whatever fault is
put there. -/
def Asks (tape : Tape) (count : Nat) : Prop :=
  ∀ cause position, ofTape (tape.cutAt count cause position) =
    .error (.failed (.ofFault cause position))

/-- Reading fails where these tokens have been taken and this stands behind them. -/
structure FailsAt (tape : Tape) (tokens : List Token) (rest : Tape) (failure : Failure) : Prop where
  whole : tape = Tape.prepend tokens rest
  /-- It has asked for each of the tokens, and for what stands behind the last of them. -/
  asks : ∀ count ≤ tokens.length, Asks tape count
  /-- It has seen nothing else. -/
  elsewhere : ∀ rest', rest.SameHead rest' →
    ofTape (Tape.prepend tokens rest') = .error (.failed failure)
  ending : (∃ cause position, rest = .fault cause position ∧ failure = .ofFault cause position) ∨
    (rest.Settled ∧ failure.fault.Grammatical)

theorem asks_zero (tape : Tape) : Asks tape 0 := by
  intro cause position
  rw [Tape.cutAt_zero]
  rfl

theorem exists_failsAt (failed : ofTape tape = .error (.failed failure)) :
    ∃ tokens rest, FailsAt tape tokens rest failure := by
  obtain ⟨cause, position, rfl, fault⟩ | ⟨settled, tokens, rest, outcome, run, ends, same⟩ :=
    ofTape_run tape
  · rw [fault] at failed
    cases failed
    refine ⟨[], .fault cause position, rfl, fun count none => ?_, fun rest' same => ?_,
      .inl ⟨cause, position, rfl, rfl⟩⟩
    · obtain rfl := Nat.le_zero.1 none
      exact asks_zero _
    · cases rest' <;> cases same
      exact fault
  · obtain rfl : outcome = .error (.failed failure) := same.symm.trans failed
    refine ⟨tokens, rest, run.whole, fun count within => ?_, fun rest' head => ?_, ?_⟩
    · cases count with
      | zero => exact asks_zero tape
      | succ count =>
          intro cause position
          obtain ⟨before, token, after, rfl, rfl⟩ : ∃ before token after,
              tokens = before ++ token :: after ∧ before.length = count :=
            ⟨tokens.take count, tokens[count], tokens.drop (count + 1), by simp,
              by simpa using Nat.le_of_succ_le within⟩
          rw [run.whole, Tape.cutAt_behind]
          exact ofTape_of_program (Tape.settled_before before token _) (run.cut rfl cause position)
            (by simp)
    · have heads := Tape.sameHead_prepend head tokens
      exact ofTape_of_run (heads.settled (run.whole ▸ settled)) (run.elsewhere head) ends
    · rcases run.ending settled with ⟨cause, position, rfl, same⟩ | ⟨after, grammatical⟩
      · cases same
        exact .inl ⟨cause, position, rfl, rfl⟩
      · exact .inr ⟨after, grammatical failure rfl⟩

theorem FailsAt.asks_iff (fails : FailsAt tape tokens rest failure) {count : Nat} :
    Asks tape count ↔ count < tokens.length + 1 := by
  refine ⟨fun asks => ?_, fun within => fails.asks count (Nat.le_of_lt_succ within)⟩
  by_contra further
  -- a fault further behind would be the failure, whatever fault it is
  obtain ⟨more, rfl⟩ := Nat.exists_eq_add_of_le (Nat.le_of_not_lt further)
  have same (cause : Fault) : Failure.ofFault cause failure.position = failure := by
    have cut := asks cause failure.position
    rw [fails.whole, Nat.add_assoc, Nat.add_comm 1, Tape.cutAt_prepend,
      fails.elsewhere _ (Tape.sameHead_cutAt rest more)] at cut
    simpa using cut.symm
  have faults := (same .unterminatedString).trans (same .invalidAssignmentTarget).symm
  cases faults

/-- Its last request brings up the token it fails at, or the fault. -/
theorem FailsAt.pulled (fails : FailsAt tape tokens rest failure) :
    tape.nextTokens (tokens.length + 1) = .error failure ∨
      tape.nextTokens (tokens.length + 1) = .ok (tokens ++ [rest.current]) ∧ rest.Settled := by
  rw [fails.whole, Tape.nextTokens_prepend]
  rcases fails.ending with ⟨cause, position, rfl, rfl⟩ | ⟨settled, -⟩
  · exact .inl rfl
  · refine .inr ⟨?_, settled⟩
    cases rest with
    | fault cause position => cases settled
    | _ => rfl

/-- On every tape that brings up the same, reading fails in the same way. -/
theorem FailsAt.again (fails : FailsAt tape tokens rest failure) {other : Tape}
    (genuine : tape.Genuine) (own : other.Genuine)
    (same : ∀ count ≤ tokens.length + 1, other.nextTokens count = tape.nextTokens count) :
    ofTape other = .error (.failed failure) := by
  obtain ⟨rest', rfl, head⟩ := Tape.prepend_of_nextTokens (fails.whole ▸ genuine) own
    (fails.whole ▸ same)
  exact fails.elsewhere rest' head

/-- A parser's own fault is placed at a token that it has seen. -/
theorem FailsAt.place (fails : FailsAt tape tokens rest failure) (settled : rest.Settled) :
    ∃ token ∈ tokens ++ [rest.current], token.position = failure.position := by
  by_contra nowhere
  have apart : ∀ token ∈ tokens ++ [rest.current], token.position ≠ failure.position :=
    fun token member same => nowhere ⟨token, member, same⟩
  -- the same tokens are read again with another place for the failure
  let move : Position → Position := fun position =>
    if position = failure.position then position.step ' ' else position
  have still : (Tape.prepend tokens rest.alone).relocate move = Tape.prepend tokens rest.alone :=
    Tape.relocate_alone settled fun token member => if_neg (apart token member)
  have moved := @ofTape_relocate move (Tape.prepend tokens rest.alone)
  rw [still, fails.elsewhere _ rest.sameHead_alone] at moved
  have kept : failure.position = move failure.position :=
    congrArg Failure.position (Stop.failed.inj (Except.error.inj moved))
  have further := failure.position.before_step ' '
  rw [show failure.position.step ' ' = move failure.position from (if_pos rfl).symm,
    ← kept] at further
  exact further.irrefl

/-- A token of a text that cannot be read to its end stands before the fault. -/
theorem before_of_place {source : String} {fault : Failure} {position : Position}
    (unread : (Tape.ofText source).tokens.2 = .error fault)
    (whole : Tape.ofText source = Tape.prepend tokens rest) (settled : rest.Settled)
    (placed : ∃ token ∈ tokens ++ [rest.current], token.position = position) :
    position.Before fault.position := by
  obtain ⟨token, member, rfl⟩ := placed
  refine (Tape.ofChars_before_fault unread).2 token ?_
  change token ∈ (Tape.ofText source).tokens.1
  rw [whole, Tape.tokens_prepend] at unread ⊢
  cases rest with
  | next found behind =>
      simp only [Tape.current, Tape.tokens, List.mem_append, List.mem_cons] at member ⊢
      tauto
  | endOfInput position => cases unread
  | fault cause position => cases settled

theorem tokens_of_tokenize_error {source : String} {fault : Failure}
    (unread : tokenize source = .error fault) : (Tape.ofText source).tokens.2 = .error fault := by
  unfold tokenize at unread
  cases ending : (Tape.ofText source).tokens.2 with
  | ok position => simp [ending, Except.map] at unread
  | error failure => simpa [ending, Except.map] using unread

/-- A text that can be read to its end has no fault to report. -/
theorem FailsAt.not_lexical {source : String} {all : List Token}
    (fails : FailsAt (.ofText source) tokens rest failure) (read : tokenize source = .ok all) :
    failure.fault.category ≠ .lexical := by
  rcases fails.ending with ⟨cause, position, rfl, -⟩ | ⟨-, grammatical⟩
  · obtain ⟨_, ending, whole, -⟩ := Tape.tokenize_eq_ok_iff.1 read
    rw [fails.whole, Tape.tokens_prepend] at whole
    cases (Prod.mk.inj whole).2
  · exact grammatical.not_lexical

/-- A text that cannot be read to its end is reported with its fault, or with one of the parser's
own further in front. -/
theorem FailsAt.fault_or_before {source : String} {fault : Failure}
    (fails : FailsAt (.ofText source) tokens rest failure)
    (unread : (Tape.ofText source).tokens.2 = .error fault) :
    failure = fault ∨ failure.fault.Grammatical ∧ failure.position.Before fault.position := by
  rcases fails.ending with ⟨cause, position, rfl, rfl⟩ | ⟨settled, grammatical⟩
  · rw [fails.whole, Tape.tokens_prepend] at unread
    exact .inl (Except.error.inj unread)
  · exact .inr ⟨grammatical, before_of_place unread fails.whole settled (fails.place settled)⟩

theorem exists_failed_of_unread {source : String} {fault : Failure}
    (unread : tokenize source = .error fault) :
    ∃ failure, ofText source = .error (.failed failure) := by
  cases parsed : ofText source with
  | ok p =>
      obtain ⟨_, _, _, read, -⟩ := parsed_is_derived parsed
      rw [unread] at read
      cases read
  | error stop =>
      cases stop with
      | failed failure => exact ⟨failure, rfl⟩
      | exhausted => exact absurd parsed (ofTape_ne_exhausted _)

/-- **Reading token by token hides no fault of the text and invents none.**  A program text that can
be read to its end never fails with a fault of the text; one that cannot fails with the fault that
ends it, or with one of the parser's own that stands before it.  A reading that fails has brought up
some number of tokens, the last of them perhaps the fault itself; it fails at one of these tokens or
with this fault, and every text that brings up the same so many times fails in the same way. -/
theorem fault_of_lookahead (source : String) :
    (∀ failure, ofText source = .error (.failed failure) →
      ((∃ tokens, tokenize source = .ok tokens) → failure.fault.category ≠ .lexical) ∧
      ∃ pulled, (∀ count, Asks (.ofText source) count ↔ count < pulled) ∧
        ((Tape.ofText source).nextTokens pulled = .error failure ∨
          ∃ tokens, (Tape.ofText source).nextTokens pulled = .ok tokens ∧
            ∃ token ∈ tokens, token.position = failure.position) ∧
        ∀ other, (∀ count ≤ pulled,
            (Tape.ofText other).nextTokens count = (Tape.ofText source).nextTokens count) →
          ofText other = .error (.failed failure)) ∧
    ∀ fault, tokenize source = .error fault →
      ∃ failure, ofText source = .error (.failed failure) ∧
        (failure = fault ∨
          failure.fault.Grammatical ∧ failure.position.Before fault.position) := by
  refine ⟨fun failure failed => ?_, fun fault unread => ?_⟩
  · obtain ⟨tokens, rest, fails⟩ := exists_failsAt failed
    refine ⟨fun ⟨all, read⟩ => fails.not_lexical read, tokens.length + 1,
      fun count => fails.asks_iff, ?_, fun other same => ?_⟩
    · refine fails.pulled.imp_right fun ⟨brought, settled⟩ => ?_
      exact ⟨_, brought, fails.place settled⟩
    · exact fails.again (Tape.genuine_ofText source) (Tape.genuine_ofText other) same
  · obtain ⟨failure, failed⟩ := exists_failed_of_unread unread
    obtain ⟨tokens, rest, fails⟩ := exists_failsAt failed
    exact ⟨failure, failed, fails.fault_or_before (tokens_of_tokenize_error unread)⟩

/-- A name is missing before a character that cannot be read: reading stops at the second token, and
so it does where the third one is a word. -/
theorem fault_before_unknown_char :
    let missing := Failure.ofFault (.unexpectedToken .name (.sign .openParen)) ⟨1, 5⟩
    let unknown := Failure.ofFault (.unknownChar '@') ⟨1, 7⟩
    let source := "fun ( @"
    let other := "fun ( else"
    ofText source = .error (.failed missing) ∧ tokenize source = .error unknown ∧
      (∀ count ≤ 2, (Tape.ofText other).nextTokens count = (Tape.ofText source).nextTokens count) ∧
      ofText other = .error (.failed missing) ∧ missing.position.Before unknown.position := by
  intro missing unknown source other
  have failed : ofText source = .error (.failed missing) := by cbv
  have unread : tokenize source = .error unknown := by cbv
  have same : ∀ count ≤ 2,
      (Tape.ofText other).nextTokens count = (Tape.ofText source).nextTokens count := by
    intro count few
    interval_cases count <;> cbv
  obtain ⟨reported, faulty⟩ := fault_of_lookahead source
  obtain ⟨-, pulled, asks, -, again⟩ := reported missing failed
  -- a fault in place of the third token goes unnoticed
  have unasked : ¬ Asks (.ofText source) 2 := by
    intro asked
    have cut := asked .unterminatedString ⟨1, 7⟩
    have noticed : ofTape ((Tape.ofText source).cutAt 2 .unterminatedString ⟨1, 7⟩) =
      .error (.failed missing) := by cbv
    rw [noticed] at cut
    simp [missing, Failure.ofFault] at cut
  have few : pulled ≤ 2 := Nat.le_of_not_lt fun more => unasked ((asks 2).2 more)
  obtain ⟨failure, found, before⟩ := faulty unknown unread
  obtain rfl : missing = failure := by simpa [failed] using found
  refine ⟨failed, unread, same, again other fun count fewer => same count (by omega), ?_⟩
  exact (before.resolve_left (by simp [missing, unknown, Failure.ofFault])).2

end Program

end Script
