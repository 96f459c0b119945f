/-
# Script.Proofs.Module.Standard -- the functions of the module that comes with the language

The functions of module `std` use their own variables only, but for `map` and `filter`, which call
what they are given (`standard_wellScoped`).  This is computed: the text is taken apart into its
characters, then the kernel finds the tokens, reads the program and checks each function.

How `Tape.ofChars` ends is not seen from its form, and the kernel is slow at unfolding it.  So the
tokens are found by `Tape.ofCharsWithin`, which is the same function but counts down.
-/
import Script.Module.Standard
import Script.Proofs.Syntax.Scoping
import Script.Syntax.Parser

namespace Script

set_option autoImplicit false

namespace Tape

/-- The tape of a text of at most so many characters. -/
def ofCharsWithin : Nat → Position → List Char → Tape
  | 0, position, _ => .endOfInput position
  | _ + 1, position, [] => .endOfInput position
  | n + 1, position, c :: cs =>
      let p := piece c cs
      let after := (position.step c).after (cs.take p.extra)
      match p.form with
      | .gap => ofCharsWithin n after (cs.drop p.extra)
      | .token kind text => .next ⟨kind, text, position⟩ (ofCharsWithin n after (cs.drop p.extra))
      | .fault cause => .fault cause position

theorem ofCharsWithin_eq : ∀ {n : Nat} {cs : List Char} (position : Position), cs.length ≤ n →
    ofCharsWithin n position cs = ofChars position cs
  | 0, [], position, _ => by
      rw [ofCharsWithin, ofChars]
  | n + 1, [], position, _ => by
      rw [ofCharsWithin, ofChars]
  | n + 1, c :: cs, position, short => by
      have shorter : (cs.drop (piece c cs).extra).length ≤ n :=
        Nat.le_trans (List.drop_sublist _ cs).length_le (Nat.le_of_succ_le_succ short)
      rw [ofChars, ← ofCharsWithin_eq _ shorter]
      rfl

end Tape

namespace Module

/-- The characters of lines, each with its line feed. -/
def lineChars (lines : List String) : List Char :=
  lines.flatMap fun line => line.toList ++ ['\n']

theorem lineChars_cons {line : List Char} {lines : List String} {cs : List Char}
    (others : lineChars lines = cs) :
    lineChars (String.ofList line :: lines) = line ++ '\n' :: cs := by
  simp [lineChars, ← others]

theorem standardText_toList : standardText.toList = lineChars standardLines := by
  simp only [standardText, lineChars, String.toList_join, List.flatMap_map, String.toList_append]
  rfl

/-- What is found out about the program that characters spell holds of that program. -/
theorem standard_of_chars {cs : List Char} {P : Program → Prop} [DecidablePred P] (n : Nat)
    (spelled : lineChars standardLines = cs) (short : cs.length ≤ n)
    (checked : (Program.ofTape (Tape.ofCharsWithin n .start cs)).toOption.any (P ·) = true) :
    ∃ program, Program.ofText standardText = .ok program ∧ P program := by
  rw [Tape.ofCharsWithin_eq .start short, ← spelled, ← standardText_toList] at checked
  obtain ⟨program, read, holds⟩ := (Option.any_eq_true _ _).1 checked
  refine ⟨program, ?_, of_decide_eq_true holds⟩
  change (Program.ofText standardText).toOption = some program at read
  generalize Program.ofText standardText = outcome at read ⊢
  cases outcome with
  | ok other =>
      cases read
      rfl
  | error stop => cases read

set_option maxRecDepth 100000 in
/-- All functions of the module but `map` and `filter` are well scoped. -/
theorem standard_wellScoped : ∃ program, Program.ofText standardText = .ok program ∧
    ∀ entry ∈ program.functions.entries,
      entry.2.WellScoped ↔ entry.1 ≠ "map" ∧ entry.1 ≠ "filter" := by
  apply standard_of_chars 8000
  · unfold standardLines
    repeat apply lineChars_cons
    exact List.flatMap_nil
  · decide +kernel
  · decide +kernel

end Module

end Script
