/-
# Script.Proofs.Tape -- tokens in front of a tape

A tape that begins with some tokens is those tokens put in front of the rest.  The
tape of a text holds no token for the end of the text: only its end stands for it.
-/
import Script.Tape

namespace Script

set_option autoImplicit false

namespace Tape

/-- The tape with tokens in front. -/
def prepend (tokens : List Token) (rest : Tape) : Tape :=
  tokens.foldr .next rest

@[simp] theorem prepend_nil (rest : Tape) : prepend [] rest = rest := rfl

@[simp] theorem prepend_cons (token : Token) (tokens : List Token) (rest : Tape) :
    prepend (token :: tokens) rest = .next token (prepend tokens rest) := rfl

@[simp] theorem prepend_append (tokens later : List Token) (rest : Tape) :
    prepend (tokens ++ later) rest = prepend tokens (prepend later rest) :=
  List.foldr_append

theorem tokens_prepend (later : List Token) (rest : Tape) :
    (prepend later rest).tokens = (later ++ rest.tokens.1, rest.tokens.2) := by
  induction later with
  | nil => rfl
  | cons token later ih => simp [tokens, ih]

theorem length_prepend (tokens : List Token) (rest : Tape) :
    (prepend tokens rest).length = tokens.length + rest.length := by
  induction tokens with
  | nil => simp
  | cons token tokens ih =>
      simp only [prepend_cons, length, ih, List.length_cons]
      omega

/-- No token on the tape stands for the end of the text. -/
def Genuine : Tape → Prop
  | .next token rest => token.kind ≠ .endOfInput ∧ rest.Genuine
  | _ => True

theorem Genuine.of_prepend {rest : Tape} :
    ∀ {tokens : List Token}, (prepend tokens rest).Genuine → rest.Genuine
  | [], genuine => genuine
  | _ :: _, genuine => of_prepend genuine.2

theorem wordKind_ne_endOfInput (word : String) : wordKind word ≠ .endOfInput := by
  unfold wordKind
  split
  · simp
  · split <;> simp

/-- A piece of text is never the end of the text. -/
theorem piece_ne_endOfInput {c : Char} {cs : List Char} {kind : Token.Kind} {text : String}
    (found : (piece c cs).form = .token kind text) : kind ≠ .endOfInput := by
  unfold piece at found
  split at found
  · cases found
  split at found
  · cases found
  split at found
  · simp only [numberPiece] at found
    split at found <;> cases found
    simp
  split at found
  · cases found
    split
    · simp
    · exact wordKind_ne_endOfInput _
  split at found
  · simp only [stringPiece] at found
    split at found <;> cases found
    simp
  · unfold signPiece at found
    split at found
    · cases found
      simp
    · split at found <;> cases found
      simp

theorem genuine_ofChars (position : Position) (cs : List Char) : (ofChars position cs).Genuine := by
  fun_induction ofChars position cs with
  | case1 => trivial
  | case2 position c cs p after gap ih => exact ih
  | case3 position c cs p after kind text found ih => exact ⟨piece_ne_endOfInput found, ih⟩
  | case4 => trivial

theorem genuine_ofText (source : String) : (ofText source).Genuine :=
  genuine_ofChars .start source.toList

end Tape

end Script
