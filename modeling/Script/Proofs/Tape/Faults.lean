/-
# Script.Proofs.Tape.Faults -- where and why a text cannot be read

A text is passed over in lexemes: blanks, comments, numbers, words, strings and signs, at each
place the longest that fits (`Longest`).  A lexeme is whole unless it is a number with two points.
The places that are reached in this way stand in a row (`Reaches.comparable`), and where nothing
can be passed over a string does not close, a number has two points, or a character begins no
lexeme (`FaultAt`).  Such a place is the last one reached, so the first of its kind, and it lies
behind every string and comment (`FirstFault`); there and nowhere else the tokens of a text end
with a failure (`tokenize_fails_at_first_fault`).

What a reader does with the head of a text is `piece`; that it goes as far as the longest lexeme
there is `lexeme_of_piece` and `length_le_of_lexeme`, that it fails on the faulty ones
`fault_of_piece_iff`.
-/
import Script.Proofs.Tape.Separated

namespace Script

set_option autoImplicit false

namespace Tape

/-- A digit with digits and points behind it. -/
def IsRun (cs : List Char) : Prop :=
  ∃ c run, cs = c :: run ∧ c.isDigit = true ∧ ∀ d ∈ run, isNumberPart d = true

/-- What a text is made of. -/
inductive Lexeme : List Char → Prop
  | blank {c : Char} (visible : isBlank c = true) : Lexeme [c]
  | comment {body : List Char} (line : '\n' ∉ body) : Lexeme ('/' :: '/' :: body)
  | number {cs : List Char} (run : IsRun cs) : Lexeme cs
  | word {c : Char} {cs : List Char} (letter : Text.isLetter c = true)
      (inside : ∀ d ∈ cs, Text.isNamePart d = true) : Lexeme (c :: cs)
  | string {inside : List Char} (closed : '"' ∉ inside) : Lexeme ('"' :: (inside ++ ['"']))
  | sign (sign : Sign) : Lexeme sign.spelling

/-- No longer lexeme begins where this one does. -/
structure Longest (cs rest : List Char) : Prop where
  lexeme : Lexeme cs
  longest : ∀ other, Lexeme other → other <+: cs ++ rest → other.length ≤ cs.length

/-- A number has one point at most. -/
def Whole (lexeme : List Char) : Prop :=
  IsRun lexeme → lexeme.count '.' ≤ 1

/-- From the start of the text on, whole lexemes take one behind `before`, where `rest` is still to
come. -/
inductive Reaches (text : List Char) : List Char → List Char → Prop
  | start : Reaches text [] text
  | pass {before lexeme rest : List Char} (here : Reaches text before (lexeme ++ rest))
      (longest : Longest lexeme rest) (whole : Whole lexeme) : Reaches text (before ++ lexeme) rest

/-- The characters that are signs by themselves. -/
def signChars : List Char :=
  ['+', '-', '*', '/', '%', '=', '!', '>', '<', '&', '|', ',', ';', ':', '.', '(', ')', '[', ']',
    '\x7b', '\x7d']

/-- Why a text cannot be read at its head. -/
inductive FaultAt : List Char → Fault → Prop
  | unterminatedString {rest : List Char} (unclosed : '"' ∉ rest) :
      FaultAt ('"' :: rest) .unterminatedString
  | invalidNumber {run rest : List Char} (number : IsRun run)
      (ends : ∀ c ∈ rest.head?, isNumberPart c = false) (points : 2 ≤ run.count '.') :
      FaultAt (run ++ rest) (.invalidNumber (String.ofList run))
  | unknownChar {c : Char} {rest : List Char} (blank : isBlank c = false)
      (letter : Text.isLetter c = false) (digit : c.isDigit = false) (quote : c ≠ '"')
      (sign : c ∉ signChars) : FaultAt (c :: rest) (.unknownChar c)

/-! ## The head of a text -/

theorem spelling_cases (sign : Sign) :
    (∃ c, sign.spelling = [c] ∧ Sign.ofChar? c = some sign) ∨
      ∃ c d, sign.spelling = [c, d] ∧ Sign.ofPair? c d = some sign := by
  cases sign <;> first | exact .inl ⟨_, rfl, rfl⟩ | exact .inr ⟨_, _, rfl, rfl⟩

theorem mem_signChars_of_head {c : Char} {cs : List Char} {sign : Sign}
    (spelled : sign.spelling = c :: cs) : c ∈ signChars := by
  cases sign <;> cases spelled <;> decide

theorem ofChar?_eq_none_iff (c : Char) : Sign.ofChar? c = none ↔ c ∉ signChars := by
  constructor
  · intro none member
    simp only [signChars, List.mem_cons, List.not_mem_nil, or_false] at member
    casesm* _ ∨ _ <;> subst c <;> cases none
  · intro outside
    cases found : Sign.ofChar? c with
    | none => rfl
    | some sign => exact absurd (mem_signChars_of_head (spelling_of_ofChar? found)) outside

section

variable {c : Char} {cs : List Char}

theorem piece_of_digit (digit : c.isDigit = true) : piece c cs = numberPiece c cs := by
  obtain ⟨visible, slash, -⟩ := isDigit_only digit
  simp [piece, visible, slash, digit]

theorem piece_of_letter (letter : Text.isLetter c = true) : piece c cs = wordPiece c cs := by
  obtain ⟨visible, slash, digit⟩ := isLetter_only letter
  simp [piece, visible, slash, digit, letter]

theorem piece_of_quote : piece '"' cs = stringPiece cs := by
  have quote : isBlank '"' = false ∧ '"'.isDigit = false ∧ Text.isLetter '"' = false := by decide
  simp [piece, quote]

theorem extra_numberPiece : (numberPiece c cs).extra = (cs.takeWhile isNumberPart).length := by
  simp only [numberPiece]
  split <;> rfl

theorem length_le_takeWhile {class_ : Char → Bool} (tail : List Char)
    (inside : ∀ d ∈ cs, class_ d = true) :
    cs.length ≤ ((cs ++ tail).takeWhile class_).length := by
  rw [List.takeWhile_append_of_pos inside, List.length_append]
  exact Nat.le_add_right _ _

/-- No lexeme goes on behind the piece at the head of a text. -/
theorem length_le_of_lexeme {other : List Char} (lexeme : Lexeme other) (head : other <+: c :: cs) :
    other.length ≤ (piece c cs).extra + 1 := by
  obtain ⟨tail, shape⟩ := head
  cases lexeme with
  | blank visible => exact Nat.le_add_left 1 _
  | @comment body line =>
      obtain ⟨rfl, rfl⟩ := List.cons.inj shape
      have inside : ∀ d ∈ '/' :: body, (fun x => decide (x ≠ '\n')) d = true := by
        intro d member
        rw [decide_eq_true_eq]
        rintro rfl
        exact line ((List.mem_cons.1 member).resolve_left (by decide))
      have blank : isBlank '/' = false := by decide
      have run := length_le_takeWhile tail inside
      simpa [piece, blank] using run
  | number run =>
      obtain ⟨d, run, rfl, digit, parts⟩ := run
      obtain ⟨rfl, rfl⟩ := List.cons.inj shape
      rw [piece_of_digit digit, extra_numberPiece]
      exact Nat.succ_le_succ (length_le_takeWhile _ parts)
  | @word d run letter inside =>
      obtain ⟨rfl, rfl⟩ := List.cons.inj shape
      rw [piece_of_letter letter]
      exact Nat.succ_le_succ (length_le_takeWhile _ inside)
  | @string inside closed =>
      obtain ⟨rfl, rfl⟩ := List.cons.inj shape
      have found := piece_string closed tail
      simp [found]
  | sign sign =>
      rcases spelling_cases sign with ⟨d, spelled, -⟩ | ⟨d, e, spelled, pair⟩
      · rw [spelled]
        exact Nat.le_add_left 1 _
      · rw [spelled] at shape ⊢
        obtain ⟨rfl, rfl⟩ := List.cons.inj shape
        cases sign <;> cases spelled <;> exact Nat.le_refl 2

theorem isRun_cons : IsRun (c :: cs) ↔ c.isDigit = true ∧ ∀ d ∈ cs, isNumberPart d = true := by
  constructor
  · rintro ⟨d, run, shape, digit, parts⟩
    obtain ⟨rfl, rfl⟩ := List.cons.inj shape
    exact ⟨digit, parts⟩
  · rintro ⟨digit, parts⟩
    exact ⟨c, cs, rfl, digit, parts⟩

theorem whole_of_not_digit (other : c.isDigit = false) : Whole (c :: cs) := by
  intro run
  rw [(isRun_cons.1 run).1] at other
  cases other

/-- A number has a value when it has one point at most. -/
theorem ofDecimal?_eq_none_iff (digit : c.isDigit = true)
    (parts : ∀ d ∈ cs, isNumberPart d = true) :
    Number.ofDecimal? (c :: cs) = none ↔ 2 ≤ (c :: cs).count '.' := by
  have other : c ≠ '.' := by
    rintro rfl
    exact absurd digit (by decide)
  rw [← Option.not_isSome_iff_eq_none, ofDecimal?_isSome_iff, erase_point_digits digit parts,
    List.count_cons_of_ne other, Nat.not_le]
  exact Nat.lt_iff_add_one_le

/-- What stands at the head of a text, by its first character. -/
theorem piece_cases (c : Char) (cs : List Char) :
    (isBlank c = true ∧ piece c cs = ⟨.gap, 0⟩) ∨
    (∃ rest, c = '/' ∧ cs = '/' :: rest ∧
      piece c cs = ⟨.gap, (cs.takeWhile (· ≠ '\n')).length⟩) ∨
    (c.isDigit = true ∧ piece c cs = numberPiece c cs) ∨
    (Text.isLetter c = true ∧ piece c cs = wordPiece c cs) ∨
    (c = '"' ∧ piece c cs = stringPiece cs) ∨
    (isBlank c = false ∧ Text.isLetter c = false ∧ c.isDigit = false ∧ c ≠ '"' ∧
      piece c cs = signPiece c cs) := by
  unfold piece
  split
  case isTrue visible => exact .inl ⟨visible, rfl⟩
  split
  case isTrue slashes =>
    rw [Bool.and_eq_true, decide_eq_true_eq, decide_eq_true_eq] at slashes
    obtain ⟨rest, shape⟩ := List.head?_eq_some_iff.1 slashes.2
    exact .inr (.inl ⟨rest, slashes.1, shape, rfl⟩)
  split
  case isTrue digit => exact .inr (.inr (.inl ⟨digit, rfl⟩))
  split
  case isTrue letter => exact .inr (.inr (.inr (.inl ⟨letter, rfl⟩)))
  split
  case isTrue quote => exact .inr (.inr (.inr (.inr (.inl ⟨quote, rfl⟩))))
  case isFalse visible _ digit letter quote =>
    simp only [Bool.not_eq_true] at visible digit letter
    exact .inr (.inr (.inr (.inr (.inr ⟨visible, letter, digit, quote, rfl⟩))))

/-- A run of digits and points cannot be read when it has two points. -/
theorem numberPiece_fault_iff (digit : c.isDigit = true) (cause : Fault) :
    (numberPiece c cs).form = .fault cause ↔
      2 ≤ (c :: cs.takeWhile isNumberPart).count '.' ∧
        cause = .invalidNumber (String.ofList (c :: cs.takeWhile isNumberPart)) := by
  have parts : ∀ d ∈ cs.takeWhile isNumberPart, isNumberPart d = true :=
    fun d member => List.mem_takeWhile_imp member
  rw [← ofDecimal?_eq_none_iff digit parts]
  cases value : Number.ofDecimal? (c :: cs.takeWhile isNumberPart) with
  | some number => simp [numberPiece, value]
  | none =>
      simp only [numberPiece, value, Form.fault.injEq, true_and]
      exact eq_comm

/-- A string cannot be read when there is no second quote. -/
theorem stringPiece_fault_iff (cause : Fault) :
    (stringPiece cs).form = .fault cause ↔ '"' ∉ cs ∧ cause = .unterminatedString := by
  have unclosed : (cs.takeWhile (· ≠ '"')).length = cs.length ↔ '"' ∉ cs := by
    constructor
    · intro same quoted
      have all := (List.takeWhile_prefix (· ≠ '"')).eq_of_length same
      simpa using List.takeWhile_eq_self_iff.1 all '"' quoted
    · intro absent
      rw [List.takeWhile_eq_self_iff.2 fun d member => ?_]
      exact decide_eq_true (ne_of_mem_of_not_mem member absent)
  rw [← unclosed]
  by_cases same : (cs.takeWhile (· ≠ '"')).length = cs.length
  · simp only [stringPiece, same, if_true, Form.fault.injEq, true_and]
    exact eq_comm
  · simp only [stringPiece, same, if_false, reduceCtorEq, false_and]

theorem ofPair?_eq_none (outside : c ∉ signChars) : cs.head?.bind (Sign.ofPair? c) = none := by
  refine Option.bind_eq_none_iff.2 fun d _ => Option.eq_none_iff_forall_ne_some.2 ?_
  intro sign pair
  exact outside (mem_signChars_of_head (spelling_of_ofPair? pair))

/-- No sign can be read when none begins with the character. -/
theorem signPiece_fault_iff (cause : Fault) :
    (signPiece c cs).form = .fault cause ↔ c ∉ signChars ∧ cause = .unknownChar c := by
  rw [← ofChar?_eq_none_iff]
  constructor
  · intro failed
    unfold signPiece at failed
    split at failed
    · cases failed
    · split at failed <;> cases failed
      exact ⟨‹_›, rfl⟩
  · rintro ⟨none, rfl⟩
    have pair : cs.head?.bind (Sign.ofPair? c) = .none :=
      ofPair?_eq_none ((ofChar?_eq_none_iff c).1 none)
    simp only [signPiece, pair, none]

/-- A sign that can be read is a lexeme. -/
theorem lexeme_of_signPiece (readable : ∀ cause, (signPiece c cs).form ≠ .fault cause) :
    Lexeme (c :: cs.take (signPiece c cs).extra) := by
  unfold signPiece at readable ⊢
  split
  case h_1 sign pair =>
    obtain ⟨d, first, pair⟩ := Option.bind_eq_some_iff.1 pair
    obtain ⟨rest, rfl⟩ := List.head?_eq_some_iff.1 first
    have lexeme := Lexeme.sign sign
    rw [spelling_of_ofPair? pair] at lexeme
    exact lexeme
  case h_2 none =>
    simp only [none] at readable
    split at readable
    case h_1 sign single =>
      have lexeme := Lexeme.sign sign
      rw [spelling_of_ofChar? single] at lexeme
      simpa [single] using lexeme
    case h_2 => exact absurd rfl (readable _)

/-- A string that can be read is a lexeme. -/
theorem lexeme_of_stringPiece (readable : ∀ cause, (stringPiece cs).form ≠ .fault cause) :
    Lexeme ('"' :: cs.take (stringPiece cs).extra) := by
  have quoted : '"' ∈ cs := by
    by_contra unclosed
    exact readable _ ((stringPiece_fault_iff _).2 ⟨unclosed, rfl⟩)
  obtain ⟨inside, tail, rfl, closed⟩ := List.eq_append_cons_of_mem quoted
  have string : (inside ++ '"' :: tail).take (inside.length + 1) = inside ++ ['"'] := by
    rw [List.take_length_add_append]
    rfl
  rw [← piece_of_quote, piece_string closed, string]
  exact .string closed

/-- A piece that can be read is a whole lexeme. -/
theorem lexeme_of_piece (readable : ∀ cause, (piece c cs).form ≠ .fault cause) :
    Lexeme (c :: cs.take (piece c cs).extra) ∧ Whole (c :: cs.take (piece c cs).extra) := by
  rcases piece_cases c cs with ⟨visible, found⟩ | ⟨rest, rfl, rfl, found⟩ | ⟨digit, found⟩ |
      ⟨letter, found⟩ | ⟨rfl, found⟩ | ⟨-, -, digit, -, found⟩ <;> rw [found] at readable ⊢
  · exact ⟨.blank visible, fun _ => List.count_le_length⟩
  · have line : '\n' ∉ rest.takeWhile (· ≠ '\n') := by
      intro member
      simpa using List.mem_takeWhile_imp member
    have run : ('/' :: rest).takeWhile (· ≠ '\n') = '/' :: rest.takeWhile (· ≠ '\n') := by simp
    rw [take_takeWhile_length, run]
    exact ⟨.comment line, whole_of_not_digit (by decide)⟩
  · have parts : ∀ d ∈ cs.takeWhile isNumberPart, isNumberPart d = true :=
      fun d member => List.mem_takeWhile_imp member
    rw [extra_numberPiece, take_takeWhile_length]
    refine ⟨.number (isRun_cons.2 ⟨digit, parts⟩), fun _ => ?_⟩
    by_contra points
    exact readable _ ((numberPiece_fault_iff digit _).2 ⟨Nat.lt_of_not_le points, rfl⟩)
  · have parts : ∀ d ∈ cs.takeWhile Text.isNamePart, Text.isNamePart d = true :=
      fun d member => List.mem_takeWhile_imp member
    have run : (wordPiece c cs).extra = (cs.takeWhile Text.isNamePart).length := rfl
    rw [run, take_takeWhile_length]
    exact ⟨.word letter parts, whole_of_not_digit (isLetter_only letter).2.2⟩
  · exact ⟨lexeme_of_stringPiece readable, whole_of_not_digit (by decide)⟩
  · exact ⟨lexeme_of_signPiece readable, whole_of_not_digit digit⟩

/-- A run that has two points is a fault. -/
theorem faultAt_takeWhile (digit : c.isDigit = true)
    (points : 2 ≤ (c :: cs.takeWhile isNumberPart).count '.') :
    FaultAt (c :: cs) (.invalidNumber (String.ofList (c :: cs.takeWhile isNumberPart))) := by
  have parts : ∀ d ∈ cs.takeWhile isNumberPart, isNumberPart d = true :=
    fun d member => List.mem_takeWhile_imp member
  have ends : ∀ d ∈ (cs.dropWhile isNumberPart).head?, isNumberPart d = false := by
    intro d first
    have outside := List.head?_dropWhile_not isNumberPart cs
    rw [first] at outside
    exact outside
  have fault := FaultAt.invalidNumber (isRun_cons.2 ⟨digit, parts⟩) ends points
  rwa [List.cons_append, List.takeWhile_append_dropWhile] at fault

/-- A text begins with a fault exactly where no piece of it can be read. -/
theorem fault_of_piece_iff (cause : Fault) :
    (piece c cs).form = .fault cause ↔ FaultAt (c :: cs) cause := by
  constructor
  · intro failed
    rcases piece_cases c cs with ⟨visible, found⟩ | ⟨rest, rfl, rfl, found⟩ | ⟨digit, found⟩ |
        ⟨letter, found⟩ | ⟨rfl, found⟩ | ⟨blank, letter, digit, quote, found⟩ <;>
      rw [found] at failed
    · cases failed
    · cases failed
    · obtain ⟨points, rfl⟩ := (numberPiece_fault_iff digit cause).1 failed
      exact faultAt_takeWhile digit points
    · cases failed
    · obtain ⟨unclosed, rfl⟩ := (stringPiece_fault_iff cause).1 failed
      exact .unterminatedString unclosed
    · obtain ⟨outside, rfl⟩ := (signPiece_fault_iff cause).1 failed
      exact .unknownChar blank letter digit quote outside
  · intro fault
    generalize shape : c :: cs = text at fault
    cases fault with
    | unterminatedString unclosed =>
        obtain ⟨rfl, rfl⟩ := List.cons.inj shape
        rw [piece_of_quote]
        exact (stringPiece_fault_iff _).2 ⟨unclosed, rfl⟩
    | @invalidNumber run rest number ends points =>
        obtain ⟨d, run, rfl, digit, parts⟩ := number
        obtain ⟨rfl, rfl⟩ := List.cons.inj shape
        have whole : (run.append rest).takeWhile isNumberPart = run := takeWhile_ended parts ends
        rw [piece_of_digit digit]
        exact (numberPiece_fault_iff digit _).2 (by rw [whole]; exact ⟨points, rfl⟩)
    | unknownChar blank letter digit quote outside =>
        obtain ⟨rfl, rfl⟩ := List.cons.inj shape
        have slash : c ≠ '/' := by
          rintro rfl
          exact outside (by decide)
        have sign : piece c cs = signPiece c cs := by
          simp [piece, blank, slash, digit, letter, quote]
        rw [sign]
        exact (signPiece_fault_iff _).2 ⟨outside, rfl⟩

end

/-! ## The places that are reached -/

section

variable {text before lexeme mid rest other : List Char} {cause : Fault}

theorem Longest.unique {further : List Char} (first : Longest lexeme rest)
    (second : Longest other further) (same : lexeme ++ rest = other ++ further) :
    lexeme = other ∧ rest = further := by
  have shorter := second.longest lexeme first.lexeme (same ▸ List.prefix_append lexeme rest)
  have longer := first.longest other second.lexeme (same ▸ List.prefix_append other further)
  exact List.append_inj same (Nat.le_antisymm shorter longer)

/-- With which character a lexeme begins; with a quote only if there is a second one. -/
theorem Lexeme.begins (lexeme : Lexeme other) :
    ∃ c cs, other = c :: cs ∧ (isBlank c = true ∨ Text.isLetter c = true ∨ c.isDigit = true ∨
      (c = '"' ∧ '"' ∈ cs) ∨ c ∈ signChars) := by
  cases lexeme with
  | blank visible => exact ⟨_, _, rfl, .inl visible⟩
  | comment line => exact ⟨_, _, rfl, .inr (.inr (.inr (.inr (by decide))))⟩
  | number run =>
      obtain ⟨c, run, rfl, digit, -⟩ := run
      exact ⟨c, run, rfl, .inr (.inr (.inl digit))⟩
  | word letter inside => exact ⟨_, _, rfl, .inr (.inl letter)⟩
  | string closed => exact ⟨_, _, rfl, .inr (.inr (.inr (.inl ⟨rfl, by simp⟩)))⟩
  | sign sign =>
      obtain ⟨c, cs, spelled⟩ : ∃ c cs, sign.spelling = c :: cs := by
        cases sign <;> exact ⟨_, _, rfl⟩
      exact ⟨c, cs, spelled, .inr (.inr (.inr (.inr (mem_signChars_of_head spelled))))⟩

/-- The piece at the head of a text is passed over if it can be read. -/
theorem longest_of_piece (c : Char) (cs : List Char)
    (readable : ∀ cause, (piece c cs).form ≠ .fault cause) :
    Longest (c :: cs.take (piece c cs).extra) (cs.drop (piece c cs).extra) where
  lexeme := (lexeme_of_piece readable).1
  longest other lexeme head := by
    rw [List.cons_append, List.take_append_drop] at head
    have short := length_le_of_lexeme lexeme head
    have inside := head.length_le
    rw [List.length_cons, List.length_take]
    rw [List.length_cons] at inside
    omega

/-- Where there is a fault no whole lexeme is passed over. -/
theorem FaultAt.not_whole (fault : FaultAt (lexeme ++ rest) cause)
    (longest : Longest lexeme rest) : ¬ Whole lexeme := by
  obtain ⟨c, cs, rfl, begins⟩ := longest.lexeme.begins
  generalize shape : c :: cs ++ rest = text at fault
  cases fault with
  | unterminatedString unclosed =>
      obtain ⟨rfl, rfl⟩ := List.cons.inj shape
      have others : isBlank '"' = false ∧ Text.isLetter '"' = false ∧ '"'.isDigit = false ∧
        '"' ∉ signChars := by decide
      simp only [others, Bool.false_eq_true, or_false, false_or, true_and] at begins
      exact absurd (List.mem_append_left rest begins) unclosed
  | @invalidNumber run further number ends points =>
      -- the run is a lexeme itself, and nothing longer begins here
      have longer := longest.longest run (.number number) (shape ▸ List.prefix_append run further)
      obtain ⟨d, run, rfl, digit, parts⟩ := number
      obtain ⟨rfl, tails⟩ := List.cons.inj shape
      have whole : (cs ++ rest).takeWhile isNumberPart = run := by
        rw [show cs ++ rest = run ++ further from tails, takeWhile_ended parts ends]
      have shorter := length_le_of_lexeme longest.lexeme (List.prefix_append (c :: cs) rest)
      change (c :: cs).length ≤ (piece c (cs ++ rest)).extra + 1 at shorter
      rw [piece_of_digit digit, extra_numberPiece, whole] at shorter
      have same : c :: cs = c :: run :=
        (List.append_inj shape (Nat.le_antisymm shorter longer)).1
      intro once
      rw [same] at once
      have := once (isRun_cons.2 ⟨digit, parts⟩)
      omega
  | unknownChar blank letter digit quote sign =>
      obtain ⟨rfl, -⟩ := List.cons.inj shape
      simp [blank, letter, digit, quote, sign] at begins

/-- The first lexeme on the way, and the rest of the way. -/
theorem Reaches.cons (longest : Longest lexeme mid) (whole : Whole lexeme)
    (reaches : Reaches mid before rest) : Reaches (lexeme ++ mid) (lexeme ++ before) rest := by
  induction reaches with
  | start => simpa using Reaches.start.pass longest whole
  | pass _ next wholeNext ih =>
      rw [← List.append_assoc]
      exact ih.pass next wholeNext

theorem Reaches.cases_cons (reaches : Reaches text before rest) :
    (before = [] ∧ text = rest) ∨ ∃ lexeme mid later, text = lexeme ++ mid ∧
      Longest lexeme mid ∧ Whole lexeme ∧ Reaches mid later rest ∧ before = lexeme ++ later := by
  induction reaches with
  | start => exact .inl ⟨rfl, rfl⟩
  | @pass before lexeme rest _ longest whole ih =>
      rcases ih with ⟨rfl, rfl⟩ | ⟨first, mid, later, rfl, begins, wholeFirst, way, rfl⟩
      · exact .inr ⟨lexeme, rest, [], rfl, longest, whole, .start, by simp⟩
      · exact .inr ⟨first, mid, later ++ lexeme, rfl, begins, wholeFirst, way.pass longest whole,
          List.append_assoc _ _ _⟩

/-- Of two places that are reached one is reached from the other. -/
theorem Reaches.comparable {before' rest' : List Char} (first : Reaches text before rest)
    (second : Reaches text before' rest') :
    (∃ between, before' = before ++ between ∧ Reaches rest between rest') ∨
      ∃ between, before = before' ++ between ∧ Reaches rest' between rest := by
  induction first with
  | start => exact .inl ⟨before', rfl, second⟩
  | @pass before lexeme rest _ longest whole ih =>
      rcases ih with ⟨between, rfl, way⟩ | ⟨between, rfl, way⟩
      · rcases way.cases_cons with ⟨rfl, rfl⟩ | ⟨other, mid, later, same, begins, -, way, rfl⟩
        · exact .inr ⟨lexeme, by simp, Reaches.start.pass longest whole⟩
        · obtain ⟨rfl, rfl⟩ := longest.unique begins same
          exact .inl ⟨later, by simp, way⟩
      · exact .inr ⟨between ++ lexeme, by simp, way.pass longest whole⟩

/-- Nothing that is reached lies behind a fault. -/
theorem Reaches.prefix_of_fault {before' rest' : List Char} (reaches : Reaches text before rest)
    (fault : FaultAt rest cause) (other : Reaches text before' rest') : before' <+: before := by
  rcases reaches.comparable other with ⟨between, rfl, way⟩ | ⟨between, rfl, -⟩
  · rcases way.cases_cons with ⟨rfl, -⟩ | ⟨lexeme, mid, later, rfl, begins, whole, -, -⟩
    · simp
    · exact absurd whole (fault.not_whole begins)
  · exact List.prefix_append before' between

end

/-! ## The failure of a text -/

/-- The first place where a text cannot be read, behind `before`, and why.  It is reached, nothing
is reached behind it, and no string and no comment that is passed over goes on up to it. -/
structure FirstFault (text before : List Char) (cause : Fault) : Prop where
  reached : ∃ rest, Reaches text before rest ∧ FaultAt rest cause
  last : ∀ other rest, Reaches text other rest → other <+: before
  strings : ∀ other inside rest, '"' ∉ inside →
    Reaches text other ('"' :: (inside ++ '"' :: rest)) →
      other ++ '"' :: (inside ++ ['"']) <+: before
  comments : ∀ other body rest, '\n' ∉ body → (∀ c ∈ rest.head?, c = '\n') →
    Reaches text other ('/' :: '/' :: (body ++ rest)) → other ++ '/' :: '/' :: body <+: before

theorem longest_of_extra {c : Char} {cs tail : List Char} (form : Form)
    (found : piece c (cs ++ tail) = ⟨form, cs.length⟩) (readable : ∀ cause, form ≠ .fault cause) :
    Longest (c :: cs) tail := by
  have longest := longest_of_piece c (cs ++ tail) (by simpa [found] using readable)
  simpa [found] using longest

theorem longest_string {inside : List Char} (closed : '"' ∉ inside) (rest : List Char) :
    Longest ('"' :: (inside ++ ['"'])) rest := by
  have found := piece_string closed rest
  exact longest_of_extra (.token .string (String.ofList inside)) (by simpa using found)
    (by simp)

theorem longest_comment {body rest : List Char} (line : '\n' ∉ body)
    (ends : ∀ c ∈ rest.head?, c = '\n') : Longest ('/' :: '/' :: body) rest :=
  longest_of_extra .gap (piece_comment line ends) (by simp)

section

variable {text before rest : List Char} {cause : Fault}

/-- A fault that is reached is the first. -/
theorem Reaches.firstFault (reaches : Reaches text before rest) (fault : FaultAt rest cause) :
    FirstFault text before cause where
  reached := ⟨rest, reaches, fault⟩
  last _ _ other := reaches.prefix_of_fault fault other
  strings other inside further closed here := by
    have shape : '"' :: (inside ++ '"' :: further) = '"' :: (inside ++ ['"']) ++ further := by simp
    rw [shape] at here
    have whole : Whole ('"' :: (inside ++ ['"'])) := whole_of_not_digit (by decide)
    exact reaches.prefix_of_fault fault (Reaches.pass here (longest_string closed further) whole)
  comments other body further line ends here := by
    have whole : Whole ('/' :: '/' :: body) := whole_of_not_digit (by decide)
    exact reaches.prefix_of_fault fault (Reaches.pass here (longest_comment line ends) whole)

/-- What is passed over does not decide how the text ends. -/
theorem ending_of_reaches (position : Position) (reaches : Reaches text before rest) :
    (ofChars position text).tokens.2 = (ofChars (position.after before) rest).tokens.2 := by
  induction reaches with
  | start => rfl
  | @pass before lexeme rest _ longest whole ih =>
      obtain ⟨c, cs, rfl, -⟩ := longest.lexeme.begins
      have readable : ∀ cause, (piece c (cs ++ rest)).form ≠ .fault cause := fun cause failed =>
        ((fault_of_piece_iff cause).1 failed).not_whole longest whole
      obtain ⟨passed, left⟩ := longest.unique (longest_of_piece c (cs ++ rest) readable) (by simp)
      obtain ⟨-, passed⟩ := List.cons.inj passed
      rw [ih, List.cons_append, ofChars, Position.after_append, Position.after_cons, ← passed,
        ← left]
      cases found : (piece c (cs ++ rest)).form with
      | gap => rfl
      | token kind text => rfl
      | fault cause => exact absurd found (readable cause)

/-- A text that cannot be read to its end fails at a fault that is reached. -/
theorem exists_reaches {position : Position} {failure : Failure}
    (failed : (ofChars position text).tokens.2 = .error failure) :
    ∃ before rest cause, Reaches text before rest ∧ FaultAt rest cause ∧
      failure = .ofFault cause (position.after before) := by
  have pass {c : Char} {cs before rest : List Char}
      (readable : ∀ cause, (piece c cs).form ≠ .fault cause)
      (reaches : Reaches (cs.drop (piece c cs).extra) before rest) :
      Reaches (c :: cs) (c :: cs.take (piece c cs).extra ++ before) rest := by
    have way := reaches.cons (longest_of_piece c cs readable) (lexeme_of_piece readable).2
    rwa [List.cons_append, List.take_append_drop] at way
  fun_induction ofChars position text with
  | case1 position => cases failed
  | case2 position c cs p after gap ih =>
      obtain ⟨before, rest, cause, reaches, fault, rfl⟩ := ih failed
      have readable : ∀ cause, p.form ≠ .fault cause := by simp [gap]
      refine ⟨_, rest, cause, pass readable reaches, fault, ?_⟩
      rw [List.cons_append, Position.after_cons, Position.after_append]
  | case3 position c cs p after kind text found ih =>
      obtain ⟨before, rest, cause, reaches, fault, rfl⟩ := ih failed
      have readable : ∀ cause, p.form ≠ .fault cause := by simp [found]
      refine ⟨_, rest, cause, pass readable reaches, fault, ?_⟩
      rw [List.cons_append, Position.after_cons, Position.after_append]
  | case4 position c cs p cause found =>
      have fault := (fault_of_piece_iff cause).1 found
      exact ⟨[], c :: cs, cause, .start, fault, (Except.error.inj failed).symm⟩

end

theorem FaultAt.exists_cons {text : List Char} {cause : Fault} (fault : FaultAt text cause) :
    ∃ c cs, text = c :: cs := by
  cases fault with
  | invalidNumber number ends points =>
      obtain ⟨c, run, rfl, -⟩ := number
      exact ⟨c, _, rfl⟩
  | _ => exact ⟨_, _, rfl⟩

theorem ofChars_fault {text : List Char} {cause : Fault} (fault : FaultAt text cause)
    (position : Position) : ofChars position text = .fault cause position := by
  obtain ⟨c, cs, rfl⟩ := fault.exists_cons
  rw [ofChars, (fault_of_piece_iff cause).2 fault]

theorem tokenize_eq_error_iff {source : String} {failure : Failure} :
    tokenize source = .error failure ↔ (ofText source).tokens.2 = .error failure := by
  unfold tokenize
  obtain ⟨read, ending⟩ := (ofText source).tokens
  cases ending <;> simp [Except.map]

end Tape

/-- A text is not tokenized exactly when a place is reached where a string does not close, a number
has two points or a character begins nothing; the failure is that of the first such place.  It is
the only one, and what stands inside strings and comments is never the cause. -/
theorem tokenize_fails_at_first_fault (source : String) :
    (∀ failure, tokenize source = .error failure ↔ ∃ before cause,
      Tape.FirstFault source.toList before cause ∧ failure = .ofFault cause (.behind before)) ∧
    ∀ before rest cause, Tape.Reaches source.toList before rest → Tape.FaultAt rest cause →
      Tape.FirstFault source.toList before cause := by
  refine ⟨fun failure => ?_, fun before rest cause reaches fault => reaches.firstFault fault⟩
  rw [Tape.tokenize_eq_error_iff]
  constructor
  · intro failed
    obtain ⟨before, rest, cause, reaches, fault, rfl⟩ := Tape.exists_reaches failed
    exact ⟨before, cause, reaches.firstFault fault, by rw [Position.after_start]⟩
  · rintro ⟨before, cause, first, rfl⟩
    obtain ⟨rest, reaches, fault⟩ := first.reached
    rw [Tape.ofText, Tape.ending_of_reaches .start reaches, Tape.ofChars_fault fault,
      Position.after_start]
    rfl

/-- What a string and a comment hold is passed over; the number behind them is the first fault. -/
theorem tokenize_two_points :
    let source := "a \"#1.2.3\" // #\n 4.5.6 #"
    let failure := Failure.ofFault (.invalidNumber "4.5.6") ⟨2, 2⟩
    tokenize source = .error failure ∧
    ∃ before cause, Tape.FirstFault source.toList before cause ∧
      failure = .ofFault cause (.behind before) ∧
      ∃ rest, Tape.Reaches source.toList before rest ∧ Tape.FaultAt rest cause ∧
        Tape.FirstFault source.toList before cause := by
  intro source failure
  have failed : tokenize source = .error failure := by cbv
  obtain ⟨before, cause, first, same⟩ :=
    ((tokenize_fails_at_first_fault source).1 failure).1 failed
  obtain ⟨rest, reaches, fault⟩ := first.reached
  exact ⟨failed, before, cause, first, same, rest, reaches, fault,
    (tokenize_fails_at_first_fault source).2 before rest cause reaches fault⟩

end Script
