/-
# Script.Proofs.Tape.Layout -- a source text is its tokens and the gaps around them

Between the tokens of a text stand gaps: blanks, and comments with the line feeds that
close them.  Reading skips a gap wherever it stands (`ofChars_gap`).  Where a text can be
read to its end, the gaps and the tokens spelled out are all of it, in order, and every
token carries the place its first character has in the text (`tokenize_loses_nothing`).
-/
import Mathlib
import Script.Proofs.Tape.Spelling

namespace Script

set_option autoImplicit false

namespace Position

/-- The place behind some text from the start on: the line feeds in it count the lines, the
characters since the last of them the columns. -/
def behind (before : List Char) : Position :=
  ⟨1 + before.count '\n', 1 + (before.reverse.takeWhile (· ≠ '\n')).length⟩

theorem behind_concat (before : List Char) (c : Char) :
    behind (before ++ [c]) = (behind before).step c := by
  by_cases feed : c = '\n'
  · subst feed
    simp [behind, step, Nat.add_assoc]
  · simp [behind, step, feed, Nat.add_assoc]

/-- Going on character by character counts lines and columns. -/
theorem after_start (before : List Char) : start.after before = behind before := by
  induction before using List.reverseRecOn with
  | nil => rfl
  | append_singleton before c ih =>
      rw [after_append, ih, after_cons, after_nil, behind_concat]

end Position

namespace Tape

/-- What may stand between two tokens: blanks, and comments up to the line feed behind them. -/
inductive Gap : List Char → Prop
  | nil : Gap []
  | blank {c : Char} {gap : List Char} (visible : isBlank c = true) (more : Gap gap) :
      Gap (c :: gap)
  | comment {body gap : List Char} (line : '\n' ∉ body) (more : Gap gap) :
      Gap ('/' :: '/' :: (body ++ '\n' :: gap))

/-- What may stand behind the last token: a gap, and a comment that the end of the text closes. -/
inductive LastGap : List Char → Prop
  | gap {gap : List Char} (plain : Gap gap) : LastGap gap
  | comment {gap body : List Char} (plain : Gap gap) (line : '\n' ∉ body) :
      LastGap (gap ++ '/' :: '/' :: body)

theorem Gap.append {gap more : List Char} (first : Gap gap) (second : Gap more) :
    Gap (gap ++ more) := by
  induction first with
  | nil => exact second
  | blank visible _ ih => exact .blank visible ih
  | comment line _ ih => simpa using Gap.comment line ih

theorem LastGap.prepend {gap last : List Char} (first : Gap gap) (second : LastGap last) :
    LastGap (gap ++ last) := by
  cases second with
  | gap plain => exact .gap (first.append plain)
  | comment plain line =>
      rw [← List.append_assoc]
      exact .comment (first.append plain) line

/-- A comment goes on to the end of its line. -/
theorem piece_comment {body tail : List Char} (line : '\n' ∉ body)
    (ends : ∀ c ∈ tail.head?, c = '\n') :
    piece '/' ('/' :: (body ++ tail)) = ⟨.gap, body.length + 1⟩ := by
  have visible : isBlank '/' = false := by decide
  have run := takeWhile_until line ends
  simp [piece, visible] at run ⊢
  simp [run]

theorem ofChars_comment {body tail : List Char} (line : '\n' ∉ body)
    (ends : ∀ c ∈ tail.head?, c = '\n') (position : Position) :
    ofChars position ('/' :: '/' :: (body ++ tail)) =
      ofChars (position.after ('/' :: '/' :: body)) tail := by
  rw [ofChars]
  simp [piece_comment line ends, Position.after_cons]

/-- Reading skips a gap and counts it. -/
theorem ofChars_gap {gap : List Char} (plain : Gap gap) (position : Position)
    (cs : List Char) : ofChars position (gap ++ cs) = ofChars (position.after gap) cs := by
  induction plain generalizing position with
  | nil => rfl
  | blank visible _ ih =>
      rw [List.cons_append, ofChars_blank visible, ih, Position.after_cons]
  | @comment body gap line _ ih =>
      have feed : isBlank '\n' = true := by decide
      calc ofChars position ('/' :: '/' :: (body ++ '\n' :: gap) ++ cs)
          = ofChars position ('/' :: '/' :: (body ++ '\n' :: (gap ++ cs))) := by simp
        _ = ofChars (position.after ('/' :: '/' :: body)) ('\n' :: (gap ++ cs)) :=
            ofChars_comment line (by simp) position
        _ = ofChars ((position.after ('/' :: '/' :: body)).after ('\n' :: gap)) cs := by
            rw [ofChars_blank feed, ih, Position.after_cons _ '\n' gap]
        _ = ofChars (position.after ('/' :: '/' :: (body ++ '\n' :: gap))) cs := by
            rw [← Position.after_append]
            rfl

/-- Nothing is read from what may stand behind the last token. -/
theorem ofChars_lastGap {last : List Char} (plain : LastGap last) (position : Position) :
    ofChars position last = .endOfInput (position.after last) := by
  cases plain with
  | gap plain =>
      have skipped := ofChars_gap plain position []
      rw [List.append_nil] at skipped
      rw [skipped, ofChars]
  | @comment gap body plain line =>
      have skipped : ofChars (position.after gap) ('/' :: '/' :: (body ++ [])) = _ :=
        ofChars_comment line (by simp) (position.after gap)
      rw [List.append_nil] at skipped
      rw [ofChars_gap plain, skipped, ofChars, Position.after_append]

/-- A token with the gap in front of it. -/
structure Slice where
  gap : List Char
  token : Token

/-- The characters of a slice. -/
def Slice.chars (slice : Slice) : List Char :=
  slice.gap ++ slice.token.source

/-- A text is the slices and the last gap, and each token has the place `place` gives to what
stands in front of it. -/
structure Layout (place : List Char → Position) (text : List Char) (slices : List Slice)
    (last : List Char) : Prop where
  whole : text = slices.flatMap Slice.chars ++ last
  gaps : ∀ slice ∈ slices, Gap slice.gap
  lastGap : LastGap last
  genuine : ∀ slice ∈ slices, slice.token.kind ≠ .endOfInput
  places : ∀ before slice later, slices = before ++ slice :: later →
    slice.token.position = place (before.flatMap Slice.chars ++ slice.gap)

section

variable {place : List Char → Position} {text last : List Char} {slices : List Slice}

theorem Layout.ofLastGap (plain : LastGap last) : Layout place last [] last where
  whole := rfl
  gaps := by simp
  lastGap := plain
  genuine := by simp
  places := by simp

/-- A gap in front goes to the first token, or to the last gap where there is no token. -/
theorem Layout.behindGap {gap : List Char} (plain : Gap gap)
    (rest : Layout (fun cs => place (gap ++ cs)) text slices last) :
    ∃ slices' last', Layout place (gap ++ text) slices' last' ∧
      slices'.map Slice.token = slices.map Slice.token := by
  cases slices with
  | nil =>
      obtain rfl : text = last := rest.whole
      exact ⟨[], gap ++ text, .ofLastGap (rest.lastGap.prepend plain), rfl⟩
  | cons slice slices =>
      refine ⟨⟨gap ++ slice.gap, slice.token⟩ :: slices, last, ⟨?_, ?_, rest.lastGap, ?_, ?_⟩, rfl⟩
      · rw [rest.whole]
        simp [Slice.chars]
      · intro other member
        rcases List.mem_cons.1 member with rfl | member
        · exact plain.append (rest.gaps slice (by simp))
        · exact rest.gaps other (List.mem_cons_of_mem _ member)
      · intro other member
        rcases List.mem_cons.1 member with rfl | member
        · exact rest.genuine slice (by simp)
        · exact rest.genuine other (List.mem_cons_of_mem _ member)
      · intro before other later split
        cases before with
        | nil =>
            obtain ⟨rfl, rfl⟩ := List.cons.inj split
            exact rest.places [] slice slices rfl
        | cons first before =>
            obtain ⟨rfl, rfl⟩ := List.cons.inj split
            rw [rest.places (slice :: before) other later rfl]
            simp [Slice.chars]

/-- A token in front, where the text begins. -/
theorem Layout.behindToken {token : Token} (genuine : token.kind ≠ .endOfInput)
    (placed : token.position = place [])
    (rest : Layout (fun cs => place (token.source ++ cs)) text slices last) :
    Layout place (token.source ++ text) (⟨[], token⟩ :: slices) last where
  whole := by
    rw [rest.whole]
    simp [Slice.chars]
  gaps := List.forall_mem_cons.2 ⟨.nil, rest.gaps⟩
  lastGap := rest.lastGap
  genuine := List.forall_mem_cons.2 ⟨genuine, rest.genuine⟩
  places := by
    intro before other later split
    cases before with
    | nil =>
        obtain ⟨rfl, rfl⟩ := List.cons.inj split
        exact placed
    | cons first before =>
        obtain ⟨rfl, rfl⟩ := List.cons.inj split
        rw [rest.places before other later rfl]
        simp [Slice.chars]

end

theorem wordKind_ne_string (word : String) : wordKind word ≠ .string := by
  unfold wordKind
  split
  · simp
  · split <;> simp

/-- A sign is spelled with the characters it is found by. -/
theorem spelling_of_ofPair? {c d : Char} {sign : Sign} (found : Sign.ofPair? c d = some sign) :
    sign.spelling = [c, d] := by
  unfold Sign.ofPair? at found
  split at found <;> cases found <;> rfl

theorem spelling_of_ofChar? {c : Char} {sign : Sign} (found : Sign.ofChar? c = some sign) :
    sign.spelling = [c] := by
  unfold Sign.ofChar? at found
  split at found <;> cases found <;> rfl

/-- What is skipped is a blank or begins a comment. -/
theorem gap_of_piece {c : Char} {cs : List Char} (found : (piece c cs).form = .gap) :
    isBlank c = true ∨ c = '/' ∧ ∃ rest, cs = '/' :: rest := by
  unfold piece at found
  split at found
  case isTrue visible => exact .inl visible
  split at found
  case isTrue slashes =>
    rw [Bool.and_eq_true, decide_eq_true_eq, decide_eq_true_eq] at slashes
    exact .inr ⟨slashes.1, List.head?_eq_some_iff.1 slashes.2⟩
  split at found
  · simp only [numberPiece] at found
    split at found <;> cases found
  split at found
  · cases found
  split at found
  · simp only [stringPiece] at found
    split at found <;> cases found
  · unfold signPiece at found
    split at found
    · cases found
    · split at found <;> cases found

theorem take_takeWhile_length (class_ : Char → Bool) (cs : List Char) :
    cs.take (cs.takeWhile class_).length = cs.takeWhile class_ :=
  (List.prefix_iff_eq_take.1 (List.takeWhile_prefix class_)).symm

section

variable {c : Char} {cs : List Char} {kind : Token.Kind} {text : String} (position : Position)

theorem source_of_numberPiece (found : (numberPiece c cs).form = .token kind text) :
    Token.source ⟨kind, text, position⟩ = c :: cs.take (numberPiece c cs).extra := by
  simp only [numberPiece] at found ⊢
  split at found <;> cases found
  simp [*, Token.source, take_takeWhile_length]

theorem source_of_wordPiece (found : (wordPiece c cs).form = .token kind text) :
    Token.source ⟨kind, text, position⟩ = c :: cs.take (wordPiece c cs).extra := by
  unfold wordPiece at found ⊢
  obtain ⟨rfl, rfl⟩ := Form.token.inj found
  have plain : ∀ carriedOn : Bool, ∀ word : String,
      (if carriedOn then .name else wordKind word) ≠ Token.Kind.string := by
    intro carriedOn word
    split
    · simp
    · exact wordKind_ne_string word
  rw [Token.source, if_neg (plain _ _), take_takeWhile_length, String.toList_ofList]

theorem source_of_stringPiece (found : (stringPiece cs).form = .token kind text) :
    Token.source ⟨kind, text, position⟩ = '"' :: cs.take (stringPiece cs).extra := by
  by_cases closed : '"' ∈ cs
  · obtain ⟨inside, tail, rfl, without⟩ := List.eq_append_cons_of_mem closed
    have run : (inside ++ '"' :: tail).takeWhile (· ≠ '"') = inside :=
      takeWhile_until without (by simp)
    have unfinished : inside.length ≠ (inside ++ '"' :: tail).length := by simp
    simp only [stringPiece, run, if_neg unfinished] at found ⊢
    obtain ⟨rfl, rfl⟩ := Form.token.inj found
    simp [Token.source, List.take_length_add_append]
  · have run : (cs ++ []).takeWhile (· ≠ '"') = cs := takeWhile_until closed (by simp)
    rw [List.append_nil] at run
    simp only [stringPiece, run] at found
    cases found

theorem source_of_signPiece (found : (signPiece c cs).form = .token kind text) :
    Token.source ⟨kind, text, position⟩ = c :: cs.take (signPiece c cs).extra := by
  unfold signPiece at found ⊢
  split at found
  case h_1 sign pair =>
    obtain ⟨d, first, pair⟩ := Option.bind_eq_some_iff.1 pair
    obtain ⟨rest, rfl⟩ := List.head?_eq_some_iff.1 first
    cases found
    simp [Token.source, spelling_of_ofPair? pair]
  case h_2 =>
    split at found
    case h_1 sign single =>
      cases found
      simp [Token.source, spelling_of_ofChar? single]
    case h_2 => cases found

/-- A token spelled out is the piece of text it was read from. -/
theorem source_of_piece (found : (piece c cs).form = .token kind text) :
    Token.source ⟨kind, text, position⟩ = c :: cs.take (piece c cs).extra := by
  unfold piece at found ⊢
  split at found
  · cases found
  split at found
  · cases found
  split at found
  · simpa [*] using source_of_numberPiece position found
  split at found
  · simpa [*] using source_of_wordPiece position found
  split at found
  case isTrue quote =>
    subst quote
    simpa [*] using source_of_stringPiece position found
  · simpa [*] using source_of_signPiece position found

end

/-- A text from `position` on can be cut into the tokens and gaps around them. -/
def LaidOut (position : Position) (text : List Char) (tokens : List Token) : Prop :=
  ∃ slices last, Layout position.after text slices last ∧ tokens = slices.map Slice.token

section

variable {position : Position} {cs : List Char} {tokens : List Token}

theorem LaidOut.behindGap {gap : List Char} (plain : Gap gap)
    (rest : LaidOut (position.after gap) cs tokens) : LaidOut position (gap ++ cs) tokens := by
  obtain ⟨slices, last, layout, rfl⟩ := rest
  have further : (position.after gap).after = fun more => position.after (gap ++ more) :=
    funext fun more => (position.after_append gap more).symm
  rw [further] at layout
  obtain ⟨slices', last', layout', same⟩ := layout.behindGap plain
  exact ⟨slices', last', layout', same.symm⟩

theorem LaidOut.behindToken {token : Token} (genuine : token.kind ≠ .endOfInput)
    (placed : token.position = position) (rest : LaidOut (position.after token.source) cs tokens) :
    LaidOut position (token.source ++ cs) (token :: tokens) := by
  obtain ⟨slices, last, layout, rfl⟩ := rest
  have further : (position.after token.source).after =
      fun more => position.after (token.source ++ more) :=
    funext fun more => (position.after_append token.source more).symm
  rw [further] at layout
  exact ⟨⟨[], token⟩ :: slices, last, layout.behindToken genuine placed, rfl⟩

end

/-- Text that begins with `//` begins with a whole comment. -/
theorem comment_cases (cs : List Char) :
    LastGap ('/' :: '/' :: cs) ∨
      ∃ gap rest, '/' :: '/' :: cs = gap ++ rest ∧ Gap gap ∧ gap ≠ [] := by
  by_cases goesOn : '\n' ∈ cs
  · obtain ⟨body, rest, rfl, line⟩ := List.eq_append_cons_of_mem goesOn
    exact .inr ⟨'/' :: '/' :: (body ++ ['\n']), rest, by simp, .comment line .nil, by simp⟩
  · exact .inl (.comment .nil goesOn)

/-- The first piece of a text that can be read. -/
theorem ofChars_cases (position : Position) (cs : List Char) :
    LastGap cs ∨
    (∃ gap rest, cs = gap ++ rest ∧ Gap gap ∧ gap ≠ []) ∨
    (∃ token rest, cs = token.source ++ rest ∧ token.position = position ∧
      token.kind ≠ .endOfInput ∧ rest.length < cs.length ∧
      ofChars position cs = .next token (ofChars (position.after token.source) rest)) ∨
    ∃ cause place, ofChars position cs = .fault cause place := by
  cases cs with
  | nil => exact .inl (.gap .nil)
  | cons c cs =>
    rw [ofChars]
    cases found : (piece c cs).form with
    | gap =>
        rcases gap_of_piece found with visible | ⟨rfl, rest, rfl⟩
        · exact .inr (.inl ⟨[c], cs, rfl, .blank visible .nil, by simp⟩)
        · rcases comment_cases rest with last | first
          · exact .inl last
          · exact .inr (.inl first)
    | token kind text =>
        have source := source_of_piece position found
        refine .inr (.inr (.inl ⟨⟨kind, text, position⟩, cs.drop (piece c cs).extra, ?_, rfl,
          piece_ne_endOfInput found, ?_, ?_⟩))
        · rw [source, List.cons_append, List.take_append_drop]
        · rw [List.length_drop, List.length_cons]
          omega
        · rw [source, Position.after_cons]
    | fault cause => exact .inr (.inr (.inr ⟨cause, position, rfl⟩))

/-- A text read to its end is laid out as the tokens read from it.  The induction is on the length
of what is still to be read: a comment is taken together with the line feed behind it, so that
the gaps stay whole. -/
theorem ofChars_laidOut {ending : Position} :
    ∀ (size : Nat) (cs : List Char) (position : Position) (tokens : List Token),
      cs.length = size → (ofChars position cs).tokens = (tokens, .ok ending) →
      LaidOut position cs tokens := by
  intro size
  induction size using Nat.strongRecOn with
  | _ size ih =>
    intro cs position tokens measured read
    rcases ofChars_cases position cs with last | ⟨gap, rest, rfl, plain, some⟩ |
        ⟨token, rest, shape, placed, genuine, shorter, first⟩ | ⟨cause, place, failed⟩
    · rw [ofChars_lastGap last] at read
      obtain ⟨rfl, -⟩ := Prod.mk.inj read
      exact ⟨[], cs, .ofLastGap last, rfl⟩
    · rw [ofChars_gap plain] at read
      have shorter : rest.length < size := by
        have := List.length_pos_iff.2 some
        rw [List.length_append] at measured
        omega
      exact (ih _ shorter rest _ tokens rfl read).behindGap plain
    · rw [first, Tape.tokens] at read
      obtain ⟨rfl, ended⟩ := Prod.mk.inj read
      rw [measured] at shorter
      have behind := ih _ shorter rest _ _ rfl (Prod.ext rfl ended)
      rw [shape]
      exact behind.behindToken genuine placed
    · rw [failed] at read
      cases (Prod.mk.inj read).2

/-- The end of a text that is read to its end is behind all of it. -/
theorem ending_ofChars {position ending : Position} {cs : List Char}
    (read : (ofChars position cs).tokens.2 = .ok ending) : ending = position.after cs := by
  fun_induction ofChars position cs with
  | case1 position => exact (Except.ok.inj read).symm
  | case2 position c cs p after gap ih =>
      rw [ih read, ← Position.after_append, List.take_append_drop, Position.after_cons]
  | case3 position c cs p after kind text found ih =>
      rw [ih read, ← Position.after_append, List.take_append_drop, Position.after_cons]
  | case4 => cases read

theorem nextTokens_endOfInput (position : Position) (count : Nat) :
    (endOfInput position).nextTokens count = .ok (List.replicate count (.endOfInput position)) := by
  induction count with
  | zero => rfl
  | succ count ih =>
      change ((endOfInput position).nextTokens count).bind _ = _
      rw [ih]
      rfl

/-- Asked for one after the other, the tokens come in order, and then the end for ever. -/
theorem nextTokens_of_tokens {tape : Tape} {read : List Token} {ending : Position}
    (whole : tape.tokens = (read, .ok ending)) (further : Nat) :
    tape.nextTokens (read.length + further) =
      .ok (read ++ List.replicate further (.endOfInput ending)) := by
  induction tape generalizing read with
  | endOfInput position =>
      obtain ⟨rfl, ended⟩ := Prod.mk.inj whole
      obtain rfl := Except.ok.inj ended
      rw [List.length_nil, Nat.zero_add]
      exact nextTokens_endOfInput position further
  | fault cause position => cases (Prod.mk.inj whole).2
  | next token rest ih =>
      obtain ⟨rfl, ended⟩ := Prod.mk.inj whole
      have behind := ih (Prod.ext rfl ended)
      rw [List.length_cons, Nat.add_right_comm]
      change (rest.nextTokens _).bind _ = _
      rw [behind]
      rfl

theorem tokenize_eq_ok_iff {source : String} {tokens : List Token} :
    tokenize source = .ok tokens ↔ ∃ read ending,
      (ofText source).tokens = (read, .ok ending) ∧ tokens = read ++ [.endOfInput ending] := by
  unfold tokenize
  obtain ⟨read, ending⟩ := (ofText source).tokens
  cases ending <;> simp [Except.map, eq_comm]

end Tape

/-- Where a text is tokenized, gaps and tokens spelled out are all of it and the token for its end
is the last; every token has the line and column its first character has in the text, and asking
for more tokens than there are brings up the end again. -/
theorem tokenize_loses_nothing {source : String} {tokens : List Token}
    (succeeded : tokenize source = .ok tokens) :
    ∃ slices last, Tape.Layout .behind source.toList slices last ∧
      tokens = slices.map Tape.Slice.token ++ [.endOfInput (.behind source.toList)] ∧
      ∀ further, (Tape.ofText source).nextTokens (tokens.length + further) =
        .ok (tokens ++ List.replicate further (.endOfInput (.behind source.toList))) := by
  obtain ⟨read, ending, whole, rfl⟩ := Tape.tokenize_eq_ok_iff.1 succeeded
  have counted : Position.start.after = .behind := funext Position.after_start
  have ended : ending = .behind source.toList := by
    rw [← counted]
    exact Tape.ending_ofChars (congrArg Prod.snd whole)
  obtain ⟨slices, last, layout, rfl⟩ := Tape.ofChars_laidOut _ _ _ _ rfl whole
  rw [counted] at layout
  subst ended
  refine ⟨slices, last, layout, rfl, fun further => ?_⟩
  have asked := Tape.nextTokens_of_tokens whole (1 + further)
  rw [Nat.add_comm 1, List.replicate_succ] at asked
  simpa [Nat.add_assoc, Nat.add_comm further] using asked

/-- A string over two lines behind a comment, and a name behind both. -/
theorem tokenize_string_over_two_lines :
    let source := "a // é\n \"é\n\" b"
    let tokens := [⟨.name, "a", ⟨1, 1⟩⟩, ⟨.string, "é\n", ⟨2, 2⟩⟩, ⟨.name, "b", ⟨3, 3⟩⟩,
      .endOfInput ⟨3, 4⟩]
    tokenize source = .ok tokens ∧
    ∃ slices last, Tape.Layout .behind source.toList slices last ∧
      tokens = slices.map Tape.Slice.token ++ [.endOfInput (.behind source.toList)] ∧
      ∀ further, (Tape.ofText source).nextTokens (tokens.length + further) =
        .ok (tokens ++ List.replicate further (.endOfInput (.behind source.toList))) := by
  intro source tokens
  have succeeded : tokenize source = .ok tokens := by cbv
  exact ⟨succeeded, tokenize_loses_nothing succeeded⟩

end Script
