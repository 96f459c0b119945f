/-
# Script.Proofs.Tape.Spelling -- tokens spelled out are read back

A token fits when its text is one its kind can have.  Spelled out in front of a blank, of a
comment or of the end of the text such a token is the next piece of the text, whole and
with nothing else (`ofChars_source`): a word goes on as far as its letters do, a sign of
one character is not taken for half of one of two.  Only behind a slash a comment would not
do (`Token.Ends`).
-/
import Script.Proofs.Tape

namespace Script

set_option autoImplicit false

namespace Tape

/-- The text is a letter with letters and digits behind it. -/
def IsWord (text : String) : Prop :=
  ∃ c cs, text.toList = c :: cs ∧ Text.isLetter c = true ∧ ∀ d ∈ cs, Text.isNamePart d = true

/-- The text can be the name of something: a word that is not reserved. -/
structure IsName (text : String) : Prop where
  word : IsWord text
  keyword : Keyword.ofSpelling? text = none
  typeName : TypeTag.ofName? text = none

/-- The text is a number literal of the value. -/
def IsNumeral (text : String) (value : Float) : Prop :=
  ∃ c cs, text.toList = c :: cs ∧ c.isDigit = true ∧ (∀ d ∈ cs, isNumberPart d = true) ∧
    Number.ofDecimal? (c :: cs) = some value

end Tape

namespace Token

/-- The text fits the kind. -/
def Fits (token : Token) : Prop :=
  match token.kind with
  | .number value => Tape.IsNumeral token.text value
  | .string => '"' ∉ token.text.toList
  | .name => Tape.IsName token.text
  | .typeName tag => token.text = tag.name
  | .keyword word => token.text = word.spelling
  | .sign sign => token.text = String.ofList sign.spelling
  | .endOfInput => False

/-- The characters the token is written with. -/
def source (token : Token) : List Char :=
  if token.kind = .string then '"' :: token.text.toList ++ ['"'] else token.text.toList

end Token

namespace Tape

/-- A blank or the beginning of a comment. -/
def IsStop (c : Char) : Prop :=
  isBlank c = true ∨ c = '/'

/-- Nothing follows, or a blank. -/
def Apart (tail : List Char) : Prop :=
  ∀ c ∈ tail.head?, isBlank c = true

/-- Nothing follows that carries on a word, a number or a sign other than a slash. -/
def Stops (tail : List Char) : Prop :=
  ∀ c ∈ tail.head?, IsStop c

theorem apart_nil : Apart [] := by
  simp [Apart]

theorem apart_cons {c : Char} {cs : List Char} : Apart (c :: cs) ↔ isBlank c = true := by
  simp [Apart]

theorem stops_cons {c : Char} {cs : List Char} : Stops (c :: cs) ↔ IsStop c := by
  simp [Stops]

theorem Apart.stops {tail : List Char} (apart : Apart tail) : Stops tail :=
  fun c first => .inl (apart c first)

theorem isBlank_cases {c : Char} (blank : isBlank c = true) :
    c = ' ' ∨ c = '\t' ∨ c = '\r' ∨ c = '\n' ∨ c = '\x0c' := by
  simpa [isBlank, or_assoc] using blank

theorem IsStop.cases {c : Char} (stop : IsStop c) :
    c = ' ' ∨ c = '\t' ∨ c = '\r' ∨ c = '\n' ∨ c = '\x0c' ∨ c = '/' := by
  simpa [IsStop, isBlank, or_assoc] using stop

end Tape

/-- What follows does not carry the token on.  Only a slash would run into a comment. -/
structure Token.Ends (token : Token) (tail : List Char) : Prop where
  stops : Tape.Stops tail
  slash : token.kind = .sign .slash → Tape.Apart tail

theorem Tape.Apart.ends {tail : List Char} (apart : Apart tail) (token : Token) :
    token.Ends tail :=
  ⟨apart.stops, fun _ => apart⟩

namespace Tape

/-- A run of characters of a class ends where the next one, if there is one, is not of it. -/
theorem takeWhile_ended {class_ : Char → Bool} {cs tail : List Char}
    (inside : ∀ c ∈ cs, class_ c = true) (ended : ∀ c ∈ tail.head?, class_ c = false) :
    (cs ++ tail).takeWhile class_ = cs := by
  rw [List.takeWhile_append_of_pos inside]
  cases tail with
  | nil => simp
  | cons c tail =>
      have outside := ended c rfl
      simp [outside]

/-- Up to the first `d` there is what holds no `d`. -/
theorem takeWhile_until {d : Char} {cs tail : List Char} (without : d ∉ cs)
    (stops : ∀ c ∈ tail.head?, c = d) : (cs ++ tail).takeWhile (· ≠ d) = cs := by
  refine takeWhile_ended (fun c member => decide_eq_true ?_) fun c first => ?_
  · rintro rfl
    exact without member
  · obtain rfl := stops c first
    simp

theorem isNumberPart_of_isStop (c : Char) (stop : IsStop c) : isNumberPart c = false := by
  rcases stop.cases with rfl | rfl | rfl | rfl | rfl | rfl <;> decide

theorem isNamePart_of_isStop (c : Char) (stop : IsStop c) : Text.isNamePart c = false := by
  rcases stop.cases with rfl | rfl | rfl | rfl | rfl | rfl <;> decide

theorem looksLikeNamePart_of_isStop (c : Char) (stop : IsStop c) :
    Text.looksLikeNamePart c = false := by
  rcases stop.cases with rfl | rfl | rfl | rfl | rfl | rfl <;> decide

/-- A digit begins a number and nothing else. -/
theorem isDigit_only {c : Char} (digit : c.isDigit = true) :
    isBlank c = false ∧ c ≠ '/' ∧ Text.isLetter c = false := by
  refine ⟨?_, ?_, ?_⟩
  · refine Bool.eq_false_iff.2 fun blank => ?_
    have outside := isNumberPart_of_isStop c (.inl blank)
    simp [isNumberPart, digit] at outside
  · rintro rfl
    exact absurd digit (by decide)
  · have high : c.toNat ≤ 57 := (Char.isDigit_iff_toNat.1 digit).2
    have ascii : c.toNat < 0x80 := by omega
    have upper : c.isUpper = false := by
      refine Bool.eq_false_iff.2 fun upper => ?_
      have low : 65 ≤ c.toNat := (of_decide_eq_true upper).1
      omega
    have lower : c.isLower = false := by
      refine Bool.eq_false_iff.2 fun lower => ?_
      have low : 97 ≤ c.toNat := of_decide_eq_true (Bool.and_eq_true_iff.1 lower).1
      omega
    rw [Text.isLetter, if_pos ascii]
    exact Bool.or_eq_false_iff.2 ⟨upper, lower⟩

/-- A letter begins a word and nothing else. -/
theorem isLetter_only {c : Char} (letter : Text.isLetter c = true) :
    isBlank c = false ∧ c ≠ '/' ∧ c.isDigit = false := by
  refine ⟨?_, ?_, ?_⟩
  · refine Bool.eq_false_iff.2 fun blank => ?_
    have outside := isNamePart_of_isStop c (.inl blank)
    rw [Text.isNamePart_of_isLetter letter] at outside
    cases outside
  · rintro rfl
    exact absurd letter (by decide)
  · refine Bool.eq_false_iff.2 fun digit => ?_
    rw [(isDigit_only digit).2.2] at letter
    cases letter

variable {text : String} {tail : List Char}

theorem piece_number {value : Float} {c : Char} {cs : List Char} (digit : c.isDigit = true)
    (inside : ∀ d ∈ cs, isNumberPart d = true)
    (numeral : Number.ofDecimal? (c :: cs) = some value) (stops : Stops tail) :
    piece c (cs ++ tail) = ⟨.token (.number value) (String.ofList (c :: cs)), cs.length⟩ := by
  obtain ⟨visible, slash, -⟩ := isDigit_only digit
  have run := takeWhile_ended inside fun d first => isNumberPart_of_isStop d (stops d first)
  simp [piece, numberPiece, visible, slash, digit, run, numeral]

theorem piece_word {c : Char} {cs : List Char} (letter : Text.isLetter c = true)
    (inside : ∀ d ∈ cs, Text.isNamePart d = true) (stops : Stops tail) :
    piece c (cs ++ tail) =
      ⟨.token (wordKind (String.ofList (c :: cs))) (String.ofList (c :: cs)), cs.length⟩ := by
  obtain ⟨visible, slash, digit⟩ := isLetter_only letter
  have run := takeWhile_ended inside fun d first => isNamePart_of_isStop d (stops d first)
  have whole : tail.head?.any Text.looksLikeNamePart = false := by
    cases tail with
    | nil => rfl
    | cons d tail => exact looksLikeNamePart_of_isStop d (stops_cons.1 stops)
  simp [piece, wordPiece, visible, slash, digit, letter, run, whole]

theorem piece_string {cs : List Char} (closed : '"' ∉ cs) (tail : List Char) :
    piece '"' (cs ++ '"' :: tail) = ⟨.token .string (String.ofList cs), cs.length + 1⟩ := by
  have run : (cs ++ '"' :: tail).takeWhile (· ≠ '"') = cs :=
    takeWhile_until closed (by simp)
  have unfinished : cs.length ≠ (cs ++ '"' :: tail).length := by simp
  have quote : isBlank '"' = false ∧ '"'.isDigit = false ∧ Text.isLetter '"' = false := by decide
  simp only [piece, stringPiece, quote, run, if_neg unfinished]
  simp

theorem piece_sign (sign : Sign) (stops : Stops tail) (slash : sign = .slash → Apart tail) :
    ∃ c cs, sign.spelling = c :: cs ∧ piece c (cs ++ tail) =
      ⟨.token (.sign sign) (String.ofList sign.spelling), cs.length⟩ := by
  cases tail with
  | nil => cases sign <;> exact ⟨_, _, rfl, by decide⟩
  | cons d tail =>
      by_cases same : sign = .slash
      · subst same
        rcases isBlank_cases (apart_cons.1 (slash rfl)) with rfl | rfl | rfl | rfl | rfl <;>
          exact ⟨_, _, rfl, rfl⟩
      · rcases (stops_cons.1 stops).cases with rfl | rfl | rfl | rfl | rfl | rfl <;>
          cases sign <;> first | exact ⟨_, _, rfl, rfl⟩ | exact absurd rfl same

theorem wordKind_name (name : IsName text) : wordKind text = .name := by
  simp [wordKind, name.keyword, name.typeName]

theorem wordKind_typeName (tag : TypeTag) : wordKind tag.name = .typeName tag := by
  cases tag <;> decide

theorem wordKind_keyword (word : Keyword) : wordKind word.spelling = .keyword word := by
  simp [wordKind, Keyword.ofSpelling?_spelling]

theorem isWord_typeName (tag : TypeTag) : IsWord tag.name := by
  cases tag <;> exact ⟨_, _, rfl, by decide, List.all_eq_true.1 (by decide)⟩

theorem isWord_keyword (word : Keyword) : IsWord word.spelling := by
  cases word <;> exact ⟨_, _, rfl, by decide, List.all_eq_true.1 (by decide)⟩

/-- The characters of a token that fits begin with one from which the piece of text goes to the
last of them. -/
theorem piece_source {token : Token} (fits : token.Fits) (ends : token.Ends tail) :
    ∃ c cs, token.source = c :: cs ∧
      piece c (cs ++ tail) = ⟨.token token.kind token.text, cs.length⟩ := by
  obtain ⟨kind, text, position⟩ := token
  cases kind with
  | number value =>
      obtain ⟨c, cs, shape, digit, inside, numeral⟩ := fits
      refine ⟨c, cs, shape, ?_⟩
      rw [piece_number digit inside numeral ends.stops, ← shape, String.ofList_toList]
  | string =>
      refine ⟨'"', text.toList ++ ['"'], rfl, ?_⟩
      simpa using piece_string fits tail
  | name =>
      obtain ⟨c, cs, shape, letter, inside⟩ := fits.word
      refine ⟨c, cs, shape, ?_⟩
      rw [piece_word letter inside ends.stops, ← shape, String.ofList_toList, wordKind_name fits]
  | typeName tag =>
      have spelled : text = tag.name := fits
      obtain ⟨c, cs, shape, letter, inside⟩ := isWord_typeName tag
      refine ⟨c, cs, by rw [← shape, ← spelled]; rfl, ?_⟩
      rw [piece_word letter inside ends.stops, ← shape, String.ofList_toList, wordKind_typeName,
        spelled]
  | keyword word =>
      have spelled : text = word.spelling := fits
      obtain ⟨c, cs, shape, letter, inside⟩ := isWord_keyword word
      refine ⟨c, cs, by rw [← shape, ← spelled]; rfl, ?_⟩
      rw [piece_word letter inside ends.stops, ← shape, String.ofList_toList, wordKind_keyword,
        spelled]
  | sign s =>
      have spelled : text = String.ofList s.spelling := fits
      have slash : s = .slash → Apart tail := fun same => ends.slash (congrArg Token.Kind.sign same)
      obtain ⟨c, cs, shape, found⟩ := piece_sign s ends.stops slash
      refine ⟨c, cs, ?_, ?_⟩
      · simp [Token.source, spelled, shape]
      · rw [found, spelled]
  | endOfInput => cases fits

/-- A token that fits, spelled out at the head of a text, is the first that is read. -/
theorem ofChars_source {token : Token} (fits : token.Fits) (ends : token.Ends tail)
    (position : Position) :
    ofChars position (token.source ++ tail) =
      .next ⟨token.kind, token.text, position⟩ (ofChars (position.after token.source) tail) := by
  obtain ⟨c, cs, shape, found⟩ := piece_source fits ends
  rw [shape, List.cons_append, ofChars]
  simp [found, Position.after_cons]

theorem ofChars_blank {c : Char} (blank : isBlank c = true) (position : Position)
    (cs : List Char) : ofChars position (c :: cs) = ofChars (position.step c) cs := by
  rw [ofChars]
  simp [piece, blank, Position.after_nil]

end Tape

end Script
