/-
# Script.Proofs.Syntax.Reading -- what a reader took off its tape

A reader that ends with a result has taken tokens from the front of its tape and nothing
else; `tape.Reads tokens rest` says which.  The rest is settled if the tape was: no reader
stops right before a fault without failing.
-/
import Script.Proofs.Tape
import Script.Syntax.Reader

namespace Script

set_option autoImplicit false

namespace Tape

/-- The tape goes on with a token or ends regularly. -/
def Settled (tape : Tape) : Prop :=
  tape.settle = .ok tape

@[simp] theorem settled_next (token : Token) (rest : Tape) : (next token rest).Settled := rfl

@[simp] theorem settled_endOfInput (position : Position) : (endOfInput position).Settled := rfl

theorem settled_prepend {rest : Tape} (settled : rest.Settled) :
    ∀ tokens, (prepend tokens rest).Settled
  | [] => settled
  | token :: tokens => settled_next token (prepend tokens rest)

theorem settled_before (tokens : List Token) (token : Token) (rest : Tape) :
    (prepend tokens (.next token rest)).Settled :=
  settled_prepend (settled_next token rest) tokens

theorem settle_ok {tape rest : Tape} (settled : tape.settle = .ok rest) :
    rest = tape ∧ tape.Settled := by
  cases tape with
  | fault cause position => cases settled
  | _ => cases settled; exact ⟨rfl, rfl⟩

/-- A settled tape that shows the end of the text has nothing behind it. -/
theorem eq_endOfInput {tape : Tape} (settled : tape.Settled) (genuine : tape.Genuine)
    (ended : tape.current.kind = .endOfInput) : ∃ position, tape = .endOfInput position := by
  cases tape with
  | endOfInput position => exact ⟨position, rfl⟩
  | fault cause position => cases settled
  | next token rest => exact absurd ended genuine.1

/-- Taking the tokens from the first tape leaves the second. -/
structure Reads (tape : Tape) (tokens : List Token) (rest : Tape) : Prop where
  whole : tape = prepend tokens rest
  settled : tape.Settled → rest.Settled

namespace Reads

variable {tape mid rest : Tape} {tokens later : List Token}

theorem refl (tape : Tape) : tape.Reads [] tape :=
  ⟨rfl, id⟩

theorem trans (first : tape.Reads tokens mid) (second : mid.Reads later rest) :
    tape.Reads (tokens ++ later) rest := by
  refine ⟨?_, fun settled => second.settled (first.settled settled)⟩
  rw [first.whole, second.whole, prepend_append]

theorem current_eq {token : Token} (reads : tape.Reads (token :: tokens) rest) :
    tape.current = token := by
  rw [reads.whole]
  rfl

end Reads

end Tape

namespace Reader

variable {α β : Type} {tape rest : Tape}

theorem bind_ok {x : Reader α} {f : α → Reader β} {b : β} (ran : (x >>= f) tape = .ok (b, rest)) :
    ∃ a mid, x tape = .ok (a, mid) ∧ f a mid = .ok (b, rest) := by
  change (x tape >>= fun p => f p.1 p.2) = .ok (b, rest) at ran
  cases first : x tape with
  | error stop => rw [first] at ran; cases ran
  | ok p => rw [first] at ran; exact ⟨p.1, p.2, rfl, ran⟩

theorem pure_ok {a b : α} (ran : (pure a : Reader α) tape = .ok (b, rest)) :
    a = b ∧ tape = rest := by
  cases ran
  exact ⟨rfl, rfl⟩

@[simp] theorem kind_bind (f : Token.Kind → Reader α) :
    (kind >>= f) tape = f tape.current.kind tape := rfl

@[simp] theorem current_bind (f : Token → Reader α) :
    (current >>= f) tape = f tape.current tape := rfl

@[simp] theorem sees_bind (sign : Sign) (f : Bool → Reader α) :
    (sees sign >>= f) tape = f (tape.current.kind = .sign sign) tape := rfl

/-- A computation chosen by what is on the tape, apart from its run. -/
theorem chosen {x : Reader α} {result : Except Stop (α × Tape)} (ran : x tape = result) :
    ∃ choice, x = choice ∧ choice tape = result :=
  ⟨x, rfl, ran⟩

theorem take_ok {token : Token} (took : take tape = .ok (token, rest))
    (inside : tape.current.kind ≠ .endOfInput) :
    token = tape.current ∧ tape.Reads [token] rest := by
  cases tape with
  | endOfInput position => exact absurd rfl inside
  | fault cause position => exact absurd rfl inside
  | next head tail =>
      change tail.settle.map _ = _ at took
      cases settled : tail.settle with
      | error stop => rw [settled] at took; cases took
      | ok final =>
          rw [settled] at took
          cases took
          obtain ⟨rfl, settles⟩ := Tape.settle_ok settled
          exact ⟨rfl, rfl, fun _ => settles⟩

theorem expect_ok {wanted : Token.Kind} {token : Token} (inside : wanted ≠ .endOfInput)
    (took : expect wanted tape = .ok (token, rest)) :
    token.kind = wanted ∧ tape.Reads [token] rest := by
  rw [expect, kind_bind] at took
  by_cases found : tape.current.kind = wanted
  · rw [if_pos found] at took
    obtain ⟨rfl, reads⟩ := take_ok took (found ▸ inside)
    exact ⟨found, reads⟩
  · rw [if_neg found] at took
    cases took

theorem expectSign_ok {sign : Sign} {token : Token}
    (took : expectSign sign tape = .ok (token, rest)) :
    token.kind = .sign sign ∧ tape.Reads [token] rest :=
  expect_ok (by simp) took

theorem expectWord_ok {word : Keyword} {token : Token}
    (took : expectWord word tape = .ok (token, rest)) :
    token.kind = .keyword word ∧ tape.Reads [token] rest :=
  expect_ok (by simp) took

theorem expectName_ok {token : Token} (took : expectName tape = .ok (token, rest)) :
    token.kind = .name ∧ tape.Reads [token] rest :=
  expect_ok (by simp) took

/-- What is accepted is either the wanted token or nothing. -/
theorem accept_ok {wanted : Token.Kind} {accepted : Bool} (inside : wanted ≠ .endOfInput)
    (took : accept wanted tape = .ok (accepted, rest)) :
    (accepted = true ∧ ∃ token, token.kind = wanted ∧ tape.Reads [token] rest) ∨
      (accepted = false ∧ tape = rest ∧ tape.current.kind ≠ wanted) := by
  rw [accept, kind_bind] at took
  by_cases found : tape.current.kind = wanted
  · rw [if_pos found] at took
    obtain ⟨token, mid, taken, ended⟩ := bind_ok took
    obtain ⟨rfl, rfl⟩ := pure_ok ended
    obtain ⟨rfl, reads⟩ := take_ok taken (found ▸ inside)
    exact .inl ⟨rfl, _, found, reads⟩
  · rw [if_neg found] at took
    obtain ⟨rfl, rfl⟩ := pure_ok took
    exact .inr ⟨rfl, rfl, found⟩

end Reader

end Script
