/-
# Script.Proofs.Tape.Joined -- one text behind another

Behind a line feed a text is read as if it stood alone.  No piece of text goes on over the
end of a text that can be read and a line feed behind it (`piece_feed`): a word or a number
ends there, a comment does, and a string has been closed.  So the tape of two texts on
lines of their own is the tape of the first with that of the second in the place of its end
(`ofText_joined`), only further down.

Tokens stand in the text in the order in which they are read (`ofChars_ordered`).
-/
import Mathlib
import Script.Proofs.Relocate.Trees
import Script.Proofs.Tape.Layout

namespace Script

set_option autoImplicit false

namespace Position

/-- The place so many lines further down. -/
def down (lines : Nat) (p : Position) : Position :=
  ⟨p.line + lines, p.column⟩

theorem step_down (lines : Nat) (p : Position) (c : Char) :
    (p.down lines).step c = (p.step c).down lines := by
  unfold step
  split
  · simp [down, Nat.add_right_comm]
  · rfl

theorem after_down (lines : Nat) (p : Position) (cs : List Char) :
    (p.down lines).after cs = (p.after cs).down lines := by
  induction cs generalizing p with
  | nil => rfl
  | cons c cs ih => rw [after_cons, after_cons, step_down, ih]

/-- The first place behind a text and a line feed is the first place of all, further down. -/
theorem step_behind (before : List Char) :
    (behind before).step '\n' = start.down (1 + before.count '\n') := by
  simp [behind, step, down, start]
  omega

/-- One place stands before another in a text. -/
def Before (p q : Position) : Prop :=
  p.line < q.line ∨ p.line = q.line ∧ p.column < q.column

theorem Before.trans {p q r : Position} (first : p.Before q) (second : q.Before r) :
    p.Before r := by
  unfold Before at *
  omega

theorem Before.trans_le {p q r : Position} (first : p.Before q) (second : r = q ∨ q.Before r) :
    p.Before r := by
  rcases second with rfl | later
  · exact first
  · exact first.trans later

theorem Before.irrefl (p : Position) : ¬ p.Before p := by
  simp [Before]

theorem before_down (lines : Nat) (p q : Position) :
    (p.down lines).Before (q.down lines) ↔ p.Before q := by
  simp [Before, down]

theorem before_step (p : Position) (c : Char) : p.Before (p.step c) := by
  unfold step
  split <;> simp [Before]

theorem before_after (p : Position) (c : Char) (cs : List Char) :
    p.Before ((p.step c).after cs) := by
  induction cs generalizing p c with
  | nil => exact before_step p c
  | cons d cs ih => exact (before_step p c).trans (ih (p.step c) d)

end Position

namespace Tape

/-- The tape with another in the place of its regular end. -/
def followedBy : Tape → Tape → Tape
  | .endOfInput _, rest => rest
  | .fault cause position, _ => .fault cause position
  | .next token tape, rest => .next token (tape.followedBy rest)

theorem followedBy_prepend (tokens : List Token) (tape rest : Tape) :
    (prepend tokens tape).followedBy rest = prepend tokens (tape.followedBy rest) := by
  induction tokens with
  | nil => rfl
  | cons token tokens ih => rw [prepend_cons, followedBy, ih, prepend_cons]

/-! ## Pieces of text before a line feed -/

section

variable {c : Char} {cs : List Char} (ds : List Char)

/-- A run of characters of a class does not go on over a line feed outside the class. -/
theorem takeWhile_feed {class_ : Char → Bool} (outside : class_ '\n' = false) (cs ds : List Char) :
    (cs ++ '\n' :: ds).takeWhile class_ = cs.takeWhile class_ := by
  rw [List.takeWhile_append]
  split
  case isTrue whole =>
    rw [List.takeWhile_cons_of_neg (by simp [outside]), List.append_nil]
    exact ((List.takeWhile_prefix class_).eq_of_length whole).symm
  case isFalse => rfl

theorem numberPiece_feed : numberPiece c (cs ++ '\n' :: ds) = numberPiece c cs := by
  simp only [numberPiece, takeWhile_feed (show isNumberPart '\n' = false by decide)]

/-- What stands behind a word does not carry it on, be it a line feed or nothing. -/
theorem wordPiece_feed : wordPiece c (cs ++ '\n' :: ds) = wordPiece c cs := by
  have run := takeWhile_feed (show Text.isNamePart '\n' = false by decide) cs ds
  have behind : ((cs ++ '\n' :: ds).drop (cs.takeWhile Text.isNamePart).length).head?.any
      Text.looksLikeNamePart =
      (cs.drop (cs.takeWhile Text.isNamePart).length).head?.any Text.looksLikeNamePart := by
    have feed : Text.looksLikeNamePart '\n' = false := by decide
    rw [List.drop_append_of_le_length (List.takeWhile_prefix _).length_le]
    cases cs.drop (cs.takeWhile Text.isNamePart).length with
    | nil => simp [feed]
    | cons d rest => rfl
  simp only [wordPiece, run, behind]

/-- A string that is closed ends at its quote, whatever follows. -/
theorem stringPiece_feed (closed : ∀ cause, (stringPiece cs).form ≠ .fault cause) :
    stringPiece (cs ++ '\n' :: ds) = stringPiece cs := by
  have quoted : '"' ∈ cs := by
    by_contra missing
    have run : (cs ++ []).takeWhile (· ≠ '"') = cs := takeWhile_until missing (by simp)
    rw [List.append_nil] at run
    exact closed .unterminatedString (by simp only [stringPiece, run, if_pos])
  obtain ⟨inside, tail, rfl, without⟩ := List.eq_append_cons_of_mem quoted
  have run : ∀ tail, (inside ++ '"' :: tail).takeWhile (· ≠ '"') = inside :=
    fun tail => takeWhile_until without (by simp)
  have unfinished : ∀ tail, inside.length ≠ (inside ++ '"' :: tail).length := by simp
  rw [List.append_assoc, List.cons_append]
  simp only [stringPiece, run, if_neg (unfinished _)]

theorem signPiece_feed : signPiece c (cs ++ '\n' :: ds) = signPiece c cs := by
  cases cs with
  | nil =>
      have single : Sign.ofPair? c '\n' = none := by
        unfold Sign.ofPair?
        split <;> first | rfl | contradiction
      simp [signPiece, single]
  | cons d cs => rfl

/-- A piece that can be read is the same with a line feed behind the text. -/
theorem piece_feed (readable : ∀ cause, (piece c cs).form ≠ .fault cause) :
    piece c (cs ++ '\n' :: ds) = piece c cs := by
  have slash : (cs ++ '\n' :: ds).head? = some '/' ↔ cs.head? = some '/' := by
    cases cs <;> simp
  have comment : (cs ++ '\n' :: ds).takeWhile (· ≠ '\n') = cs.takeWhile (· ≠ '\n') :=
    takeWhile_feed (by decide) cs ds
  unfold piece at readable ⊢
  simp only [slash, comment, numberPiece_feed, wordPiece_feed, signPiece_feed]
  by_cases quote : c = '"'
  · subst quote
    have other : isBlank '"' = false ∧ '"'.isDigit = false ∧ Text.isLetter '"' = false := by decide
    simp only [other] at readable ⊢
    simpa using stringPiece_feed ds (by simpa using readable)
  · simp only [if_neg quote]

/-- A piece lies within the text. -/
theorem extra_le (c : Char) (cs : List Char) : (piece c cs).extra ≤ cs.length := by
  have run (class_ : Char → Bool) : (cs.takeWhile class_).length ≤ cs.length :=
    (List.takeWhile_prefix class_).length_le
  unfold piece
  split
  · exact Nat.zero_le _
  split
  · exact run _
  split
  · simp only [numberPiece]
    split <;> exact run _
  split
  · exact run _
  split
  · simp only [stringPiece]
    split
    case isTrue => exact Nat.le_refl _
    case isFalse closed => exact Nat.lt_of_le_of_ne (run _) closed
  · unfold signPiece
    split
    case h_1 pair =>
      obtain ⟨d, first, -⟩ := Option.bind_eq_some_iff.1 pair
      obtain ⟨rest, rfl⟩ := List.head?_eq_some_iff.1 first
      simp
    case h_2 => split <;> exact Nat.zero_le _

end

/-! ## Texts on lines of their own -/

/-- Behind a text that is read to its end and a line feed a text is read as by itself. -/
theorem ofChars_feed {position ending : Position} {cs : List Char} (ds : List Char)
    (read : (ofChars position cs).tokens.2 = .ok ending) :
    ofChars position (cs ++ '\n' :: ds) =
      (ofChars position cs).followedBy (ofChars (ending.step '\n') ds) := by
  -- piece by piece: each one ends before the line feed, also the last
  fun_induction ofChars position cs with
  | case1 position =>
      obtain rfl := Except.ok.inj read
      have feed : isBlank '\n' = true := by decide
      exact ofChars_blank feed position ds
  | case2 position c cs p after gap ih =>
      have same : piece c (cs ++ '\n' :: ds) = p := piece_feed ds (by simp [p, gap])
      rw [List.cons_append, ofChars]
      simp only [same, gap, List.take_append_of_le_length (extra_le c cs),
        List.drop_append_of_le_length (extra_le c cs), p]
      exact ih read
  | case3 position c cs p after kind text found ih =>
      have same : piece c (cs ++ '\n' :: ds) = p := piece_feed ds (by simp [p, found])
      rw [List.cons_append, ofChars]
      simp only [same, found, List.take_append_of_le_length (extra_le c cs),
        List.drop_append_of_le_length (extra_le c cs), p]
      exact congrArg (next _) (ih read)
  | case4 => cases read

/-- Further down a text has the same tokens, further down. -/
theorem ofChars_down (lines : Nat) (position : Position) (cs : List Char) :
    ofChars (position.down lines) cs = (ofChars position cs).relocate (.down lines) := by
  fun_induction ofChars position cs with
  | case1 => rw [ofChars, relocate]
  | case2 position c cs p after gap ih =>
      rw [← ih, ofChars]
      simp only [p, gap, Position.step_down, Position.after_down, after]
  | case3 position c cs p after kind text found ih =>
      rw [relocate, ← ih, ofChars]
      simp only [p, found, Position.step_down, Position.after_down, after, Token.relocate]
  | case4 position c cs p cause found =>
      rw [ofChars]
      simp only [p, found, relocate]

/-- The tape of two texts on lines of their own, if the first can be read to its end. -/
theorem ofText_joined {first : String} {ending : Position} (second : String)
    (read : (ofText first).tokens.2 = .ok ending) :
    ofText (first ++ "\n" ++ second) = (ofText first).followedBy
      ((ofText second).relocate (.down (1 + first.toList.count '\n'))) := by
  have ended : ending = .behind first.toList := by
    rw [← Position.after_start]
    exact ending_ofChars read
  have feed : "\n".toList = ['\n'] := rfl
  calc ofText (first ++ "\n" ++ second)
      = ofChars .start (first.toList ++ '\n' :: second.toList) := by
        simp [ofText, feed]
    _ = (ofText first).followedBy (ofChars (ending.step '\n') second.toList) :=
        ofChars_feed _ read
    _ = _ := by
        rw [ended, Position.step_behind, ofChars_down]
        rfl

/-- The tokens of a text stand in it in their order, none of them before the text. -/
theorem ofChars_ordered (position : Position) (cs : List Char) :
    (ofChars position cs).tokens.1.Pairwise (fun t u => t.position.Before u.position) ∧
      ∀ token ∈ (ofChars position cs).tokens.1,
        token.position = position ∨ position.Before token.position := by
  fun_induction ofChars position cs with
  | case1 => simp [tokens]
  | case2 position c cs p after gap ih =>
      have further : position.Before after := position.before_after c (cs.take p.extra)
      exact ⟨ih.1, fun token member => .inr (further.trans_le (ih.2 token member))⟩
  | case3 position c cs p after kind text found ih =>
      have further : position.Before after := position.before_after c (cs.take p.extra)
      have later : ∀ token ∈ (ofChars after (cs.drop p.extra)).tokens.1,
          position.Before token.position :=
        fun token member => further.trans_le (ih.2 token member)
      simp only [tokens, List.pairwise_cons, List.forall_mem_cons]
      exact ⟨⟨later, ih.1⟩, .inl trivial, fun token member => .inr (later token member)⟩
  | case4 => simp [tokens]

/-- The fault that ends the tokens of a text stands behind all of them. -/
theorem ofChars_before_fault {position : Position} {cs : List Char} {failure : Failure}
    (failed : (ofChars position cs).tokens.2 = .error failure) :
    (failure.position = position ∨ position.Before failure.position) ∧
      ∀ token ∈ (ofChars position cs).tokens.1, token.position.Before failure.position := by
  fun_induction ofChars position cs with
  | case1 => cases failed
  | case2 position c cs p after gap ih =>
      have further : position.Before after := position.before_after c (cs.take p.extra)
      exact ⟨.inr (further.trans_le (ih failed).1), (ih failed).2⟩
  | case3 position c cs p after kind text found ih =>
      have further : position.Before after := position.before_after c (cs.take p.extra)
      have here : position.Before failure.position := further.trans_le (ih failed).1
      exact ⟨.inr here, List.forall_mem_cons.2 ⟨here, (ih failed).2⟩⟩
  | case4 position c cs p cause found =>
      obtain rfl := Except.error.inj failed
      exact ⟨.inl rfl, by simp [tokens]⟩

end Tape

end Script
