/-
# Script.Proofs.Syntax.Soundness.Program -- a program read is its text

A source text that parses is, token for token, a list of imports and functions as the
grammar writes them, and the program holds exactly these, in order.  No token is left out,
read twice or moved.  The main statement is `parsed_is_derived`.
-/
import Mathlib
import Script.Proofs.Syntax.Items
import Script.Proofs.Syntax.Soundness.Statements

namespace Script

set_option autoImplicit false

open Grammar Reader

namespace Parser

variable {steps : Nat} {tape rest : Tape}

theorem moreNames_ok {before : List Token} {first : String} {names : List String}
    (name : Name before first) (ran : moreNames steps tape = .ok (names, rest)) :
    ∃ tokens, tape.Reads tokens rest ∧ Separated Name (before ++ tokens) (first :: names) := by
  induction steps generalizing before first names tape rest with
  | zero => cases ran
  | succ steps ih =>
      simp only [moreNames] at ran
      obtain ⟨accepted, _, accepts, ran⟩ := bind_ok ran
      rcases accept_ok (by simp) accepts with ⟨rfl, comma, separates, readComma⟩ | ⟨rfl, rfl, -⟩
      · obtain ⟨next, _, took, ran⟩ := bind_ok ran
        obtain ⟨kind, readNext⟩ := expectName_ok took
        obtain ⟨others, _, follows, ran⟩ := bind_ok ran
        obtain ⟨after, more, separated⟩ := ih (.name kind) follows
        obtain ⟨rfl, rfl⟩ := pure_ok ran
        refine ⟨_, (readComma.trans readNext).trans more, ?_⟩
        simpa using Separated.more name separates separated
      · obtain ⟨rfl, rfl⟩ := pure_ok ran
        exact ⟨[], .refl tape, by simpa using Separated.last name⟩

theorem params_ok {names : List String} (ran : params steps tape = .ok (names, rest)) :
    ∃ opening tokens closing, tape.Reads (opening :: tokens ++ [closing]) rest ∧
      opening.kind = .sign .openParen ∧ Listing Name tokens names ∧
      closing.kind = .sign .closeParen := by
  simp only [params] at ran
  obtain ⟨opening, _, took, ran⟩ := bind_ok ran
  obtain ⟨opens, readOpening⟩ := expectSign_ok took
  rw [sees_bind] at ran
  split at ran
  case isTrue =>
    obtain ⟨_, _, none, ran⟩ := bind_ok ran
    obtain ⟨rfl, rfl⟩ := pure_ok none
    obtain ⟨closing, _, took, ran⟩ := bind_ok ran
    obtain ⟨closes, readClosing⟩ := expectSign_ok took
    obtain ⟨rfl, rfl⟩ := pure_ok ran
    exact ⟨_, [], _, readOpening.trans readClosing, opens, .none, closes⟩
  case isFalse =>
    obtain ⟨first, _, took, ran⟩ := bind_ok ran
    obtain ⟨kind, readFirst⟩ := expectName_ok took
    obtain ⟨others, _, follows, ran⟩ := bind_ok ran
    obtain ⟨after, more, separated⟩ := moreNames_ok (.name kind) follows
    obtain ⟨_, _, some, ran⟩ := bind_ok ran
    obtain ⟨rfl, rfl⟩ := pure_ok some
    obtain ⟨closing, _, took, ran⟩ := bind_ok ran
    obtain ⟨closes, readClosing⟩ := expectSign_ok took
    obtain ⟨rfl, rfl⟩ := pure_ok ran
    have reads := ((readOpening.trans readFirst).trans more).trans readClosing
    exact ⟨_, first :: after, _, by simpa using reads, opens, .some separated, closes⟩

theorem function_ok {seen : FunctionTable} {f : Function}
    (ran : function seen steps tape = .ok (f, rest)) :
    (∃ tokens, tape.Reads tokens rest ∧ Grammar.Function tokens f) ∧
      seen.contains f.name = false := by
  simp only [function] at ran
  obtain ⟨word, _, took, ran⟩ := bind_ok ran
  obtain ⟨declares, readWord⟩ := expectWord_ok took
  obtain ⟨name, _, took, ran⟩ := bind_ok ran
  obtain ⟨names, readName⟩ := expectName_ok took
  split at ran
  case isTrue => cases ran
  case isFalse new =>
    obtain ⟨params, _, inside, ran⟩ := bind_ok ran
    obtain ⟨opening, tokens, closing, readParams, opens, listing, closes⟩ := params_ok inside
    obtain ⟨body, _, block, ran⟩ := bind_ok ran
    obtain ⟨later, readBody, block⟩ := (soundStmt steps).block block
    obtain ⟨rfl, rfl⟩ := pure_ok ran
    have reads := ((readWord.trans readName).trans readParams).trans readBody
    refine ⟨⟨_, reads, ?_⟩, by simpa using new⟩
    simpa using Grammar.Function.function declares names opens listing closes block

theorem importDecl_ok {seen : List Import} {decl : Import}
    (ran : importDecl seen tape = .ok (decl, rest)) :
    (∃ tokens, tape.Reads tokens rest ∧ Borrowing tokens decl) ∧
      seen.any decl.agrees = false := by
  simp only [importDecl] at ran
  obtain ⟨word, _, took, ran⟩ := bind_ok ran
  obtain ⟨borrows, readWord⟩ := expectWord_ok took
  obtain ⟨module, _, took, ran⟩ := bind_ok ran
  obtain ⟨from_, readModule⟩ := expectName_ok took
  rw [sees_bind] at ran
  split at ran
  case isFalse => cases ran
  case isTrue found =>
    have points := of_decide_eq_true found
    obtain ⟨dot, _, took, ran⟩ := bind_ok ran
    obtain ⟨rfl, readDot⟩ := take_ok took (by simp [points])
    obtain ⟨name, _, took, ran⟩ := bind_ok ran
    obtain ⟨names, readName⟩ := expectName_ok took
    obtain ⟨newName, _, naming, ran⟩ := bind_ok ran
    have reads := ((readWord.trans readModule).trans readDot).trans readName
    split at ran
    case isTrue => cases ran
    case isFalse new =>
      obtain ⟨rfl, rfl⟩ := pure_ok ran
      refine ⟨?_, by simpa using new⟩
      obtain ⟨accepted, _, accepts, naming⟩ := bind_ok naming
      rcases accept_ok (by simp) accepts with ⟨rfl, as, renames, readAs⟩ | ⟨rfl, rfl, -⟩
      · obtain ⟨other, _, took, naming⟩ := bind_ok naming
        obtain ⟨named, readOther⟩ := expectName_ok took
        split at naming
        case isTrue => cases naming
        case isFalse =>
          obtain ⟨rfl, rfl⟩ := pure_ok naming
          exact ⟨_, (reads.trans readAs).trans readOther,
            .renamed borrows from_ points names renames named⟩
      · obtain ⟨rfl, rfl⟩ := pure_ok naming
        exact ⟨_, reads, .plain borrows from_ points names⟩

theorem program_ok {seen p : Program} (distinct : seen.Distinct)
    (ran : program seen steps tape = .ok (p, rest)) :
    ∃ tokens items, tape.Reads tokens rest ∧ Items tokens items ∧ p = seen.extend items ∧
      p.Distinct ∧ rest.current.kind = .endOfInput := by
  induction steps generalizing seen tape with
  | zero => cases ran
  | succ steps ih =>
      simp only [program, kind_bind] at ran
      obtain ⟨choice, shape, ran⟩ := chosen ran
      split at shape <;> subst shape
      case h_1 ended =>
        obtain ⟨rfl, rfl⟩ := pure_ok ran
        exact ⟨[], [], .refl tape, .nil, seen.extend_nil.symm, distinct, ended⟩
      case h_2 =>
        obtain ⟨decl, _, first, ran⟩ := bind_ok ran
        obtain ⟨⟨tokens, reads, borrowing⟩, new⟩ := importDecl_ok first
        obtain ⟨later, items, more, derived, rfl, distinct, ended⟩ := ih (distinct.borrow new) ran
        exact ⟨tokens ++ later, .borrowing decl :: items, reads.trans more,
          .borrowing borrowing derived, seen.extend_borrowing decl items, distinct, ended⟩
      case h_3 =>
        obtain ⟨f, _, first, ran⟩ := bind_ok ran
        obtain ⟨⟨tokens, reads, function⟩, new⟩ := function_ok first
        obtain ⟨later, items, more, derived, rfl, distinct, ended⟩ := ih (distinct.declare new) ran
        exact ⟨tokens ++ later, .function f :: items, reads.trans more,
          .function function derived, seen.extend_function f items, distinct, ended⟩
      case h_4 => cases ran

end Parser

namespace Program

/-- **A source text that parses is made of the tokens of its tree.**  The tokens up to the end of
the text derive a list of imports and functions, every node of them at the place of its token, and
these are the program; no two functions have one name and no two imports agree. -/
theorem parsed_is_derived {source : String} {p : Program} (parsed : ofText source = .ok p) :
    ∃ tokens position items, tokenize source = .ok (tokens ++ [.endOfInput position]) ∧
      Items tokens items ∧ p = ofItems items ∧ p.Distinct := by
  unfold ofText ofTape at parsed
  cases settling : (Tape.ofText source).settle with
  | error stop => rw [settling] at parsed; cases parsed
  | ok tape =>
      obtain ⟨rfl, settled⟩ := Tape.settle_ok settling
      rw [settling] at parsed
      change (Parser.program .empty _ _ >>= _) = _ at parsed
      cases ran : Parser.program .empty (8 * (Tape.ofText source).length + 8)
          (Tape.ofText source) with
      | error stop => rw [ran] at parsed; cases parsed
      | ok result =>
          obtain ⟨q, rest⟩ := result
          rw [ran] at parsed
          cases parsed
          obtain ⟨tokens, items, reads, derived, rfl, distinct, ended⟩ :=
            Parser.program_ok distinct_empty ran
          have genuine : rest.Genuine := (reads.whole ▸ Tape.genuine_ofText source).of_prepend
          obtain ⟨position, rfl⟩ := Tape.eq_endOfInput (reads.settled settled) genuine ended
          refine ⟨tokens, position, items, ?_, derived, extend_empty items, distinct⟩
          simp [tokenize, reads.whole, Tape.tokens_prepend, Tape.tokens, Except.map]

/-- An assignment to an index in parentheses, with a comparison inside a dictionary. -/
theorem derived_with_brackets :
    let source := "fun f() \x7b (a[b]) = <k: (c > d)> \x7d"
    let comparison := .binary ⟨1, 27⟩ .greater (.name ⟨1, 25⟩ "c") (.name ⟨1, 29⟩ "d")
    let value := .dict ⟨1, 20⟩ [(.name "k", comparison)]
    let assignment := .setIndex ⟨1, 13⟩ (.name ⟨1, 12⟩ "a") (.name ⟨1, 14⟩ "b") value
    let p := ofItems [.function ⟨"f", [], [.expr assignment], ⟨1, 5⟩⟩]
    ofText source = .ok p ∧ ∃ tokens position items,
      tokenize source = .ok (tokens ++ [.endOfInput position]) ∧ Items tokens items ∧
        p = ofItems items ∧ p.Distinct := by
  intro source comparison value assignment p
  have parsed : ofText source = .ok p := by cbv
  exact ⟨parsed, parsed_is_derived parsed⟩

end Program

end Script
