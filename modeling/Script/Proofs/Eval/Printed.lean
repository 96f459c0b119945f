/-
# Script.Proofs.Eval.Printed -- a program that returns a printed number

Behind `return` the text of a number is read as one number, behind a minus sign when the number is
negative, and the program comes to that number, bit for bit (`printed_number_reads_back`).  The text
ends at the blank behind it (`ofChars_numeral`), so what is read of it is the numeral that the text
without its sign is; what the numeral stands for is negated again when the program runs.
-/
import Script.Job
import Script.Proofs.Module.Standard
import Script.Proofs.Number.Printing

namespace Script

set_option autoImplicit false

/-- The program that returns what a text stands for. -/
def returning (text : String) : String :=
  "fun main() \x7b return " ++ text ++ " \x7d"

/-! ## Its tokens -/

namespace Tape

variable {value : Float} {digits : String}

/-- The tokens in front of what is returned. -/
def opening : List Token :=
  [⟨.keyword .function, "fun", ⟨1, 1⟩⟩, ⟨.name, "main", ⟨1, 5⟩⟩, ⟨.sign .openParen, "(", ⟨1, 9⟩⟩,
    ⟨.sign .closeParen, ")", ⟨1, 10⟩⟩, ⟨.sign .openBrace, "\x7b", ⟨1, 12⟩⟩,
    ⟨.keyword .return, "return", ⟨1, 14⟩⟩]

/-- The tokens of a number that is returned. -/
def returned (negative : Bool) (value : Float) (digits : String) : List Token :=
  if negative then
    [⟨.sign .minus, "-", ⟨1, 21⟩⟩, ⟨.number value, digits, ⟨1, 22⟩⟩]
  else [⟨.number value, digits, ⟨1, 21⟩⟩]

theorem ofChars_opening (tail : List Char) :
    ofChars .start ("fun main() \x7b return ".toList ++ tail) =
      prepend opening (ofChars ⟨1, 21⟩ tail) := by
  have fits : ("fun main() \x7b return ".toList ++ tail).length ≤ tail.length + 10 + 10 := by
    rw [List.length_append, Nat.add_comm]
    exact Nat.le_refl _
  rw [← ofCharsWithin_eq _ fits, ← ofCharsWithin_eq _ (Nat.le_add_right tail.length 10)]
  rfl

/-- No sign of two characters begins with a minus. -/
theorem ofChars_minus (position : Position) (cs : List Char) :
    ofChars position ('-' :: cs) =
      .next ⟨.sign .minus, "-", position⟩ (ofChars (position.step '-') cs) := by
  have found : piece '-' cs = ⟨.token (.sign .minus) "-", 0⟩ := by
    cases cs <;> rfl
  rw [ofChars, found]
  rfl

theorem ofChars_closing (position : Position) :
    ofChars position " \x7d".toList =
      .next ⟨.sign .closeBrace, "\x7d", position.step ' '⟩
        (.endOfInput ((position.step ' ').step '\x7d')) := by
  rw [← ofCharsWithin_eq position (Nat.le_refl _)]
  rfl

/-- A numeral ends before a blank. -/
theorem ofChars_numeral (numeral : IsNumeral digits value) (position : Position) :
    ∃ brace ending, ofChars position (digits.toList ++ " \x7d".toList) =
      prepend [⟨.number value, digits, position⟩, ⟨.sign .closeBrace, "\x7d", brace⟩]
        (.endOfInput ending) := by
  let token : Token := ⟨.number value, digits, position⟩
  have fits : token.Fits := numeral
  have apart : Apart " \x7d".toList := apart_cons.2 (by decide)
  have read := ofChars_source fits (apart.ends token) position
  rw [ofChars_closing] at read
  exact ⟨_, _, read⟩

theorem ofText_returning (text : String) : ofText (returning text) =
    prepend opening (ofChars ⟨1, 21⟩ (text.toList ++ " \x7d".toList)) := by
  have parts (first second third : String) :
      (first ++ second ++ third).toList = first.toList ++ (second.toList ++ third.toList) := by
    rw [String.toList_append, String.toList_append, List.append_assoc]
  exact (congrArg (ofChars .start) (parts _ _ _)).trans (ofChars_opening _)

theorem ofText_returning_numeral (negative : Bool) (numeral : IsNumeral digits value) :
    ∃ brace ending, ofText (returning (if negative then "-" ++ digits else digits)) =
      prepend (opening ++ returned negative value digits ++ [⟨.sign .closeBrace, "\x7d", brace⟩])
        (.endOfInput ending) := by
  rw [ofText_returning]
  cases negative with
  | false =>
      obtain ⟨brace, ending, read⟩ := ofChars_numeral numeral ⟨1, 21⟩
      refine ⟨brace, ending, ?_⟩
      rw [List.append_assoc, prepend_append]
      exact congrArg (prepend opening) read
  | true =>
      obtain ⟨brace, ending, read⟩ := ofChars_numeral numeral ⟨1, 22⟩
      refine ⟨brace, ending, ?_⟩
      rw [List.append_assoc, prepend_append, if_pos rfl, String.toList_append, List.append_assoc]
      refine congrArg (prepend opening) ((ofChars_minus ⟨1, 21⟩ _).trans ?_)
      exact congrArg (Tape.next ⟨.sign .minus, "-", ⟨1, 21⟩⟩) read

end Tape

/-! ## Its run -/

/-- A number that is returned. -/
def returnedExpr (negative : Bool) (value : Float) : Expr :=
  if negative then .unary ⟨1, 21⟩ .negate (.number ⟨1, 22⟩ value) else .number ⟨1, 21⟩ value

/-- The program that returns an expression. -/
def Program.returning (e : Expr) : Program :=
  ⟨FunctionTable.empty.add "main" ⟨"main", [], [.return ⟨1, 14⟩ (some e)], ⟨1, 5⟩⟩, []⟩

theorem ofTape_returned (negative : Bool) (value : Float) (digits : String)
    (brace ending : Position) :
    Program.ofTape (Tape.prepend
      (Tape.opening ++ Tape.returned negative value digits ++
        [⟨.sign .closeBrace, "\x7d", brace⟩]) (.endOfInput ending)) =
      .ok (.returning (returnedExpr negative value)) := by
  cases negative <;> rfl

theorem runMain_returned (negative : Bool) (value : Float) (input : Input) :
    Ending.ofOutcome (Eval.runMain (Program.returning (returnedExpr negative value)).functions
        (.start input)) =
      (.value (.number (if negative then -value else value)) .empty, "") := by
  cases negative <;> rfl

section

variable {m : Type → Type} [Monad m] [LawfulMonad m]

/-- A program without imports asks for no module. -/
theorem runText_of_alone {source : String} {program : Program}
    (read : Program.ofText source = .ok program) (alone : program.imports = [])
    (provider : Module.Provider m) (input : Input) :
    runText provider source input =
      pure (Ending.ofOutcome (Eval.runMain program.functions (.start input))) := by
  have linked : Module.linkText provider source = pure (.ok program.functions) := by
    rw [Module.linkText, read]
    simp only [alone, Module.Linker.link, pure_bind]
    rfl
  rw [runText, linked, pure_bind]

/-- **A printed number reads back as itself.**  The text of a finite number is a decimal, digits with
at most one point among them, behind a minus sign or not.  In the program that returns it, it is
read as one number token, with a minus token in front exactly when the text begins with one, and the
run of the program comes to the number again, the same bits, a negative zero included. -/
theorem printed_number_reads_back (provider : Module.Provider m) (input : Input) (store : Store)
    {x : Float} (isFinite : x.isFinite = true) :
    ∃ text digits value read position,
      store.render (.number x) = .ok text ∧ Tape.IsDecimal digits ∧
      text = (if text.toList.head? = some '-' then "-" ++ digits else digits) ∧
      tokenize (returning text) = .ok (read ++ [.endOfInput position]) ∧
      read.map (fun token => (token.kind, token.text)) =
        ([(.keyword .function, "fun"), (.name, "main"), (.sign .openParen, "("),
          (.sign .closeParen, ")"), (.sign .openBrace, "\x7b"), (.keyword .return, "return")] :
            List (Token.Kind × String)) ++
        (if text.toList.head? = some '-' then [(Token.Kind.sign .minus, "-")] else []) ++
        [(Token.Kind.number value, digits), (Token.Kind.sign .closeBrace, "\x7d")] ∧
      runText provider (returning text) input = pure (.value (.number x) .empty, "") := by
  obtain ⟨negative, digits, value, numeral, shape, same⟩ := Number.text_reads_back isFinite
  obtain ⟨brace, ending, tape⟩ := Tape.ofText_returning_numeral negative numeral
  rw [← shape] at tape
  have decimal : Tape.IsDecimal digits := (Tape.isNumeral_iff digits).1 ⟨value, numeral⟩
  have signed : (Number.text x).toList.head? = some '-' ↔ negative = true := by
    rw [shape]
    cases negative with
    | false =>
        obtain ⟨c, cs, spelled, digit, -⟩ := decimal
        have other : c ≠ '-' := by
          rintro rfl
          exact absurd digit (by decide)
        simp [spelled, other]
    | true => simp
  refine ⟨Number.text x, digits, value,
    Tape.opening ++ Tape.returned negative value digits ++ [⟨.sign .closeBrace, "\x7d", brace⟩],
    ending, rfl, decimal, ?_, ?_, ?_, ?_⟩
  · simp only [signed]
    exact shape
  · refine Tape.tokenize_eq_ok_iff.2 ⟨_, ending, ?_, rfl⟩
    rw [tape, Tape.tokens_prepend, Tape.tokens, List.append_nil]
  · simp only [signed]
    cases negative <;> rfl
  · have read : Program.ofText (returning (Number.text x)) =
        .ok (.returning (returnedExpr negative value)) := by
      rw [Program.ofText, tape, ofTape_returned]
    rw [runText_of_alone read rfl, runMain_returned, ← same]

end

/-- Negative zero is printed with its sign and comes back with it. -/
theorem negative_zero_reads_back : (-0.0 : Float).isFinite = true ∧
    ∃ value read position,
      Store.empty.render (.number (-0.0)) = .ok "-0" ∧ Tape.IsDecimal "0" ∧
      tokenize (returning "-0") = .ok (read ++ [.endOfInput position]) ∧
      read.map (fun token => (token.kind, token.text)) =
        ([(.keyword .function, "fun"), (.name, "main"), (.sign .openParen, "("),
          (.sign .closeParen, ")"), (.sign .openBrace, "\x7b"), (.keyword .return, "return"),
          (.sign .minus, "-"), (.number value, "0"), (.sign .closeBrace, "\x7d")] :
            List (Token.Kind × String)) ∧
      runText (m := Id) .none (returning "-0") (.lines []) =
        pure (.value (.number (-0.0)) .empty, "") := by
  have isFinite : (-0.0 : Float).isFinite = true := by decide +kernel
  obtain ⟨text, digits, value, read, position, rendered, decimal, shape, tokens, kinds, run⟩ :=
    printed_number_reads_back (m := Id) .none (.lines []) .empty isFinite
  have known : Number.text (-0.0) = "-0" := by decide +kernel
  obtain rfl : "-0" = text := Except.ok.inj ((congrArg Except.ok known.symm).trans rendered)
  have sign : "-0".toList.head? = some '-' := by decide
  rw [if_pos sign] at shape kinds
  obtain rfl : "0" = digits := by
    have same : "-0".toList = ("-" ++ digits).toList := congrArg String.toList shape
    rw [String.toList_append] at same
    exact String.toList_inj.1 (List.cons.inj same).2
  exact ⟨isFinite, value, read, position, rendered, decimal, tokens, kinds, run⟩

end Script
