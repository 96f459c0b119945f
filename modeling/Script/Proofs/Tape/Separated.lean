/-
# Script.Proofs.Tape.Separated -- separated tokens are read back

Tokens that fit their kinds, written with a separator between any two of them, are what is
read from the text, whatever the separators are (`tokenize_separated`).  Which texts fit is
settled for the two kinds where it is not plain: the texts of numbers are those with at most
one point, and a reserved word with more behind it is a name.
-/
import Script.Proofs.Tape.Layout

namespace Script

set_option autoImplicit false

namespace Tape

/-- A gap that begins with a blank.  It keeps apart tokens that would otherwise run together. -/
def Separator (gap : List Char) : Prop :=
  Gap gap ∧ ∃ c ∈ gap.head?, isBlank c = true

/-- The text is a digit with digits behind it and at most one point among them. -/
def IsDecimal (text : String) : Prop :=
  ∃ c cs, text.toList = c :: cs ∧ c.isDigit = true ∧ (∀ d ∈ cs, isNumberPart d = true) ∧
    cs.count '.' ≤ 1

/-- The digits on both sides of the point are the text without its first point. -/
theorem splitPoint_join (cs : List Char) :
    (Number.splitPoint cs).1 ++ (Number.splitPoint cs).2 = cs.erase '.' := by
  induction cs with
  | nil => rfl
  | cons c cs ih =>
      by_cases point : c = '.'
      · simp [Number.splitPoint, point]
      · simpa [Number.splitPoint, point, List.erase_cons] using ih

/-- A text has a value when it is digits once its first point is taken away. -/
theorem ofDecimal?_isSome_iff (cs : List Char) :
    (Number.ofDecimal? cs).isSome = true ↔
      cs.erase '.' ≠ [] ∧ ∀ d ∈ cs.erase '.', d.isDigit = true := by
  rw [← splitPoint_join, ← List.all_eq_true, ← List.isEmpty_eq_false_iff]
  simp only [Number.ofDecimal?]
  cases ((Number.splitPoint cs).1 ++ (Number.splitPoint cs).2).isEmpty <;>
    cases ((Number.splitPoint cs).1 ++ (Number.splitPoint cs).2).all Char.isDigit <;> simp

theorem erase_point_digits {c : Char} {cs : List Char} (digit : c.isDigit = true)
    (parts : ∀ d ∈ cs, isNumberPart d = true) :
    ((c :: cs).erase '.' ≠ [] ∧ ∀ d ∈ (c :: cs).erase '.', d.isDigit = true) ↔
      cs.count '.' ≤ 1 := by
  have other : c ≠ '.' := by
    rintro rfl
    exact absurd digit (by decide)
  have shape : (c :: cs).erase '.' = c :: cs.erase '.' := by
    rw [List.erase_cons, if_neg (by simpa using other)]
  rw [shape, List.forall_mem_cons]
  have left : (∀ d ∈ cs.erase '.', d.isDigit = true) ↔ '.' ∉ cs.erase '.' := by
    constructor
    · intro digits member
      exact absurd (digits '.' member) (by decide)
    · intro absent d member
      have part := parts d (List.mem_of_mem_erase member)
      rw [isNumberPart, Bool.or_eq_true, decide_eq_true_eq] at part
      rcases part with digit | rfl
      · exact digit
      · exact absurd member absent
  rw [left, ← List.count_eq_zero, List.count_erase_self]
  simp [digit]
  omega

/-- The texts of numbers are the digits with at most one point. -/
theorem isNumeral_iff (text : String) : (∃ value, IsNumeral text value) ↔ IsDecimal text := by
  constructor
  · rintro ⟨value, c, cs, shape, digit, parts, read⟩
    have some := (ofDecimal?_isSome_iff _).1 (Option.isSome_of_eq_some read)
    exact ⟨c, cs, shape, digit, parts, (erase_point_digits digit parts).1 some⟩
  · rintro ⟨c, cs, shape, digit, parts, once⟩
    have some := (ofDecimal?_isSome_iff _).2 ((erase_point_digits digit parts).2 once)
    obtain ⟨value, read⟩ := Option.isSome_iff_exists.1 some
    exact ⟨value, c, cs, shape, digit, parts, read⟩

/-- No reserved word begins with another. -/
theorem keyword_of_prefix {word other : Keyword}
    (begins : word.spelling.toList <+: other.spelling.toList) : word = other := by
  revert begins
  cases word <;> cases other <;> decide

theorem not_prefix_typeName (word : Keyword) (tag : TypeTag) :
    ¬ word.spelling.toList <+: tag.name.toList := by
  cases word <;> cases tag <;> decide

/-- A reserved word that goes on is a name. -/
theorem isName_keyword_append (word : Keyword) {more : List Char} (some : more ≠ [])
    (inside : ∀ c ∈ more, Text.isNamePart c = true) :
    IsName (String.ofList (word.spelling.toList ++ more)) := by
  obtain ⟨c, cs, shape, letter, letters⟩ := isWord_keyword word
  refine ⟨⟨c, cs ++ more, ?_, letter, ?_⟩, ?_, ?_⟩
  · rw [String.toList_ofList, shape, List.cons_append]
  · intro d member
    exact (List.mem_append.1 member).elim (letters d) (inside d)
  · refine List.find?_eq_none.2 fun other _ same => ?_
    have spelled : other.spelling.toList = word.spelling.toList ++ more := by
      rw [of_decide_eq_true same, String.toList_ofList]
    obtain rfl := keyword_of_prefix ⟨more, spelled.symm⟩
    exact some (List.append_right_eq_self.1 spelled.symm)
  · refine List.find?_eq_none.2 fun tag _ same => ?_
    refine not_prefix_typeName word tag ⟨more, ?_⟩
    rw [of_decide_eq_true same, String.toList_ofList]

/-- A gap begins with a blank or with a comment. -/
theorem Gap.stops {gap tail : List Char} (plain : Gap gap) (stops : Stops tail) :
    Stops (gap ++ tail) := by
  cases plain with
  | nil => exact stops
  | blank visible _ => exact stops_cons.2 (.inl visible)
  | comment _ _ => exact stops_cons.2 (.inr rfl)

theorem LastGap.stops {last : List Char} (lastGap : LastGap last) : Stops last := by
  cases lastGap with
  | gap plain => simpa using plain.stops apart_nil.stops
  | comment plain _ => exact plain.stops (stops_cons.2 (.inr rfl))

theorem Separator.apart {gap tail : List Char} (separator : Separator gap) :
    Apart (gap ++ tail) := by
  obtain ⟨-, c, first, blank⟩ := separator
  obtain ⟨rest, rfl⟩ := List.head?_eq_some_iff.1 first
  exact apart_cons.2 blank

/-- Behind a token that another one or the end follows nothing carries it on. -/
theorem ends_chars {token : Token} {slices : List Slice} {last : List Char}
    (separated : ∀ slice ∈ slices, Separator slice.gap) (lastGap : LastGap last)
    (slash : slices = [] → token.kind = .sign .slash → Apart last) :
    token.Ends (slices.flatMap Slice.chars ++ last) := by
  cases slices with
  | nil => exact ⟨lastGap.stops, slash rfl⟩
  | cons slice slices =>
      rw [List.flatMap_cons, Slice.chars, List.append_assoc, List.append_assoc]
      exact (separated slice (by simp)).apart.ends token

/-- Separated tokens are read one by one, whatever stands before the first of them. -/
theorem ofChars_separated {last : List Char} (lastGap : LastGap last) :
    ∀ (slices : List Slice) (position : Position),
      (∀ slice ∈ slices, slice.token.Fits ∧ Gap slice.gap) →
      (∀ slice ∈ slices.tail, Separator slice.gap) →
      (∀ slice ∈ slices.getLast?, slice.token.kind = .sign .slash → Apart last) →
      ∃ read ending, ofChars position (slices.flatMap Slice.chars ++ last) =
          prepend read (.endOfInput ending) ∧
        read.map (fun token => (token.kind, token.text)) =
          slices.map fun slice => (slice.token.kind, slice.token.text)
  | [], position, _, _, _ => ⟨[], _, ofChars_lastGap lastGap position, rfl⟩
  | slice :: slices, position, fits, separated, slash => by
      obtain ⟨⟨spelled, gap⟩, others⟩ := List.forall_mem_cons.1 fits
      rw [List.tail_cons] at separated
      have ends : slice.token.Ends (slices.flatMap Slice.chars ++ last) := by
        refine ends_chars separated lastGap ?_
        rintro rfl
        exact slash slice rfl
      have slash' : ∀ other ∈ slices.getLast?, other.token.kind = .sign .slash → Apart last := by
        intro other final
        exact slash other (List.mem_getLast?_cons final)
      obtain ⟨read, ending, found, same⟩ := ofChars_separated lastGap slices
        ((position.after slice.gap).after slice.token.source) others
        (fun other member => separated other (List.mem_of_mem_tail member)) slash'
      refine ⟨⟨slice.token.kind, slice.token.text, position.after slice.gap⟩ :: read, ending,
        ?_, ?_⟩
      · calc ofChars position ((slice :: slices).flatMap Slice.chars ++ last)
            = ofChars position (slice.gap ++
                (slice.token.source ++ (slices.flatMap Slice.chars ++ last))) := by
              simp [Slice.chars]
          _ = ofChars (position.after slice.gap)
                (slice.token.source ++ (slices.flatMap Slice.chars ++ last)) :=
              ofChars_gap gap position _
          _ = _ := by rw [ofChars_source spelled ends, found, prepend_cons]
      · rw [List.map_cons, List.map_cons, same]

end Tape

open Tape in
/-- Tokens that fit their kinds are read back from any text in which separators stand between
them, kind by kind and text by text.  A comment may follow the last directly, if that is no slash.
The texts that fit a number are the digits with at most one point, and a reserved word with
letters or digits behind it fits a name. -/
theorem tokenize_separated :
    (∀ text, (∃ value, IsNumeral text value) ↔ IsDecimal text) ∧
    (∀ (word : Keyword) (more : List Char), more ≠ [] → (∀ c ∈ more, Text.isNamePart c = true) →
      IsName (String.ofList (word.spelling.toList ++ more))) ∧
    ∀ (slices : List Slice) (last : List Char),
      (∀ slice ∈ slices, slice.token.Fits ∧ Gap slice.gap) →
      (∀ slice ∈ slices.tail, Separator slice.gap) → LastGap last →
      (∀ slice ∈ slices.getLast?, slice.token.kind = .sign .slash → Apart last) →
      ∃ read position,
        tokenize (String.ofList (slices.flatMap Slice.chars ++ last)) =
          .ok (read ++ [.endOfInput position]) ∧
        read.map (fun token => (token.kind, token.text)) =
          slices.map fun slice => (slice.token.kind, slice.token.text) := by
  refine ⟨isNumeral_iff, fun word more => isName_keyword_append word, ?_⟩
  intro slices last fits separated lastGap slash
  obtain ⟨read, ending, found, same⟩ :=
    ofChars_separated lastGap slices .start fits separated slash
  refine ⟨read, ending, tokenize_eq_ok_iff.2 ⟨read, ending, ?_, rfl⟩, same⟩
  rw [ofText, String.toList_ofList, found, tokens_prepend, tokens, List.append_nil]

open Tape in
/-- A reserved word that goes on, a number that ends in its point and a string of slashes, with
comments that hold signs between them. -/
theorem tokenize_between_comments :
    ∃ value read position,
      tokenize "// a\nfunk >=\t// =\n 1. \"//\"// b" = .ok (read ++ [.endOfInput position]) ∧
      read.map (fun token => (token.kind, token.text)) =
        [(.name, "funk"), (.sign .greaterEqual, ">="), (.number value, "1."), (.string, "//")] := by
  obtain ⟨decimals, names, reads⟩ := tokenize_separated
  obtain ⟨value, numeral⟩ := (decimals "1.").2
    ⟨'1', ['.'], rfl, by decide, List.all_eq_true.1 (by decide), by decide⟩
  have name : IsName "funk" :=
    names .function ['k'] (by decide) (List.all_eq_true.1 (by decide))
  have plain : ('"' ∉ "//".toList) := by decide
  have lead : Gap ('/' :: '/' :: ([' ', 'a'] ++ '\n' :: [])) := .comment (by decide) .nil
  have blank : Gap [' '] := .blank (by decide) .nil
  have comment : Gap ('\t' :: '/' :: '/' :: ([' ', '='] ++ '\n' :: [' '])) :=
    .blank (by decide) (.comment (by decide) blank)
  have last : LastGap ([] ++ '/' :: '/' :: [' ', 'b']) := .comment .nil (by decide)
  let slices : List Slice :=
    [⟨['/', '/', ' ', 'a', '\n'], .name, "funk", .start⟩,
      ⟨[' '], .sign .greaterEqual, ">=", .start⟩,
      ⟨['\t', '/', '/', ' ', '=', '\n', ' '], .number value, "1.", .start⟩,
      ⟨[' '], .string, "//", .start⟩]
  have fits : ∀ slice ∈ slices, slice.token.Fits ∧ Gap slice.gap := by
    simp only [slices, List.forall_mem_cons]
    exact ⟨⟨name, lead⟩, ⟨rfl, blank⟩, ⟨numeral, comment⟩, ⟨plain, blank⟩, by simp⟩
  have separated : ∀ slice ∈ slices.tail, Separator slice.gap := by
    simp only [slices, List.tail_cons, List.forall_mem_cons]
    exact ⟨⟨blank, _, rfl, by decide⟩, ⟨comment, _, rfl, by decide⟩, ⟨blank, _, rfl, by decide⟩,
      by simp⟩
  have slash : ∀ slice ∈ slices.getLast?, slice.token.kind = .sign .slash →
      Apart ['/', '/', ' ', 'b'] := by
    simp [slices]
  have text : String.ofList (slices.flatMap Slice.chars ++ ['/', '/', ' ', 'b']) =
      "// a\nfunk >=\t// =\n 1. \"//\"// b" := by
    simp [slices, Slice.chars, Token.source]
  rw [← text]
  exact ⟨value, reads slices _ fits separated last slash⟩

end Script
