/-
# Script.Proofs.Text.Lines -- a text cut in advance, and its bytes cut line by line

No character but the line feed has the byte of a line feed in its encoding, so the bytes of a
text are cut where the text is cut (`takeLine_encode`).  What is left of a line differs only in
the carriage returns at its end: a prepared text gives up one, and only before a line feed, where
bytes give up all.  In a text that is `Unpadded` there is never more than the one to give up
(`trimEnd_firstLine`).
-/
import Script.Text.Lines
import Mathlib.Data.List.TakeWhile

namespace Script.Text

set_option autoImplicit false

/-- The bytes of a text. -/
def encode (cs : List Char) : List UInt8 :=
  cs.flatMap String.utf8EncodeChar

theorem encode_nil : encode [] = [] := rfl

theorem encode_cons (c : Char) (cs : List Char) :
    encode (c :: cs) = String.utf8EncodeChar c ++ encode cs :=
  List.flatMap_cons

theorem encode_toList (text : String) : encode text.toList = text.toUTF8.data.toList := by
  rw [String.toUTF8_eq_toByteArray, ← String.utf8Encode_toList]
  exact List.toList_data_toByteArray.symm

/-- Only the empty text has no bytes. -/
theorem encode_cons_ne_nil (c : Char) (cs : List Char) : encode (c :: cs) ≠ [] := by
  rw [encode_cons]
  have some := String.length_utf8EncodeChar c
  have := c.utf8Size_pos
  intro none
  rw [(List.append_eq_nil_iff.1 none).1, List.length_nil] at some
  omega

theorem utf8EncodeChar_newline : String.utf8EncodeChar '\n' = [lineFeed] := by
  decide

/-- The bytes of a longer encoding are all 128 or more. -/
theorem lineFeed_ne_of_mem {c : Char} (other : c ≠ '\n') :
    ∀ b ∈ String.utf8EncodeChar c, b ≠ lineFeed := by
  have code : c.val.toNat ≠ 10 := fun same => other (Char.ext (UInt32.toNat_inj.1 same))
  have high : ∀ {n : Nat}, n < 256 → n ≠ 10 → UInt8.ofNat n ≠ lineFeed := by
    intro n small away same
    have := congrArg UInt8.toNat same
    rw [UInt8.toNat_ofNat_of_lt' small] at this
    exact away this
  intro b member
  unfold String.utf8EncodeChar at member
  dsimp only at member
  split at member
  · obtain rfl := List.mem_singleton.1 member
    exact high (by omega) code
  · split at member
    · simp only [List.mem_cons, List.not_mem_nil, or_false] at member
      rcases member with rfl | rfl <;> exact high (by omega) (by omega)
    · split at member <;> simp only [List.mem_cons, List.not_mem_nil, or_false] at member
      · rcases member with rfl | rfl | rfl <;> exact high (by omega) (by omega)
      · rcases member with rfl | rfl | rfl | rfl <;> exact high (by omega) (by omega)

/-- The bytes before the first line feed are those of the first line. -/
theorem takeWhile_encode (cs : List Char) :
    (encode cs).takeWhile (· ≠ lineFeed) = encode (firstLine cs) := by
  induction cs with
  | nil => rfl
  | cons c cs ih =>
      by_cases newline : c = '\n'
      · subst newline
        rw [encode_cons, utf8EncodeChar_newline]
        simp [firstLine, encode_nil]
      · have plain : ∀ b ∈ String.utf8EncodeChar c, decide (b ≠ lineFeed) = true :=
          fun b member => decide_eq_true (lineFeed_ne_of_mem newline b member)
        rw [encode_cons, List.takeWhile_append_of_pos plain, ih]
        simp [firstLine, newline, encode_cons]

theorem drop_dropWhile_encode (cs : List Char) :
    ((encode cs).dropWhile (· ≠ lineFeed)).drop 1 = encode (afterLine cs) := by
  induction cs with
  | nil => rfl
  | cons c cs ih =>
      by_cases newline : c = '\n'
      · subst newline
        rw [encode_cons, utf8EncodeChar_newline]
        simp [afterLine]
      · have plain : ∀ b ∈ String.utf8EncodeChar c, decide (b ≠ lineFeed) = true :=
          fun b member => decide_eq_true (lineFeed_ne_of_mem newline b member)
        rw [encode_cons, List.dropWhile_append_of_pos plain, ih]
        simp [afterLine, newline]

theorem fromUTF8?_encode (cs : List Char) :
    String.fromUTF8? (encode cs).toByteArray = some (String.ofList cs) := by
  have bytes : (encode cs).toByteArray = (String.ofList cs).toByteArray :=
    String.toByteArray_ofList.symm
  rw [bytes, String.fromUTF8?, dif_pos (String.ofList cs).isValidUTF8]
  rfl

/-- Bytes of a text are cut where the text is. -/
theorem takeLine_encode (cs : List Char) :
    takeLine (encode cs) = (String.ofList (trimEnd (firstLine cs)), encode (afterLine cs)) := by
  rw [takeLine, takeWhile_encode, drop_dropWhile_encode, fromUTF8?_encode]
  simp

/-! ## The end of a line -/

/-- No carriage return stands directly before the pair that ends a line, nor at the very end. -/
structure Unpadded (cs : List Char) : Prop where
  inside : ¬ ['\r', '\r', '\n'] <:+: cs
  atEnd : cs.getLast? ≠ some '\r'

theorem trimEnd_nil : trimEnd [] = [] := rfl

theorem trimEnd_concat (cs : List Char) (c : Char) :
    trimEnd (cs ++ [c]) = if c = '\r' ∨ c = '\n' then trimEnd cs else cs ++ [c] := by
  simp only [trimEnd, List.reverse_append, List.reverse_singleton, List.singleton_append,
    List.dropWhile_cons, Bool.or_eq_true, decide_eq_true_eq]
  split
  · rfl
  · simp

/-- A line that ends in neither of the two loses nothing. -/
theorem trimEnd_eq_self {line : List Char} (single : '\n' ∉ line)
    (plain : line.getLast? ≠ some '\r') : trimEnd line = line := by
  rcases List.eq_nil_or_concat line with rfl | ⟨cs, c, rfl⟩
  · exact trimEnd_nil
  · rw [List.concat_eq_append] at *
    have other : ¬ (c = '\r' ∨ c = '\n') := by
      rintro (rfl | rfl)
      · exact plain List.getLast?_concat
      · exact single (by simp)
    rw [trimEnd_concat, if_neg other]

/-- A line that ends in at most one carriage return loses that one. -/
theorem trimEnd_eq_dropReturn {line : List Char} (single : '\n' ∉ line)
    (once : ¬ ['\r', '\r'] <:+ line) : trimEnd line = dropReturn line := by
  rcases List.eq_nil_or_concat line with rfl | ⟨cs, c, rfl⟩
  · rfl
  · rw [List.concat_eq_append] at *
    have inner : '\n' ∉ cs := fun member => single (List.mem_append_left _ member)
    by_cases closing : c = '\r'
    · subst closing
      have before : cs.getLast? ≠ some '\r' := by
        intro twice
        obtain ⟨rest, rfl⟩ := List.getLast?_eq_some_iff.1 twice
        exact once ⟨rest, by simp⟩
      rw [trimEnd_concat, if_pos (.inl rfl), trimEnd_eq_self inner before]
      simp [dropReturn]
    · have plain : (cs ++ [c]).getLast? ≠ some '\r' := by simpa using closing
      rw [trimEnd_eq_self single plain, dropReturn, if_neg plain]

/-! ## Line by line -/

theorem newline_not_mem_firstLine (cs : List Char) : '\n' ∉ firstLine cs := by
  intro member
  simpa using List.mem_takeWhile_imp member

/-- A text with a line feed is its first line, the line feed, and what stands after it. -/
theorem firstLine_append_afterLine {cs : List Char} (more : '\n' ∈ cs) :
    firstLine cs ++ '\n' :: afterLine cs = cs := by
  induction cs with
  | nil => cases more
  | cons c cs ih =>
      by_cases newline : c = '\n'
      · simp [firstLine, afterLine, newline]
      · have later : '\n' ∈ cs := by simpa [Ne.symm newline] using more
        simpa [firstLine, afterLine, newline] using ih later

theorem firstLine_eq_self {cs : List Char} (single : '\n' ∉ cs) : firstLine cs = cs := by
  refine List.takeWhile_eq_self_iff.2 fun c member => decide_eq_true ?_
  rintro rfl
  exact single member

theorem afterLine_eq_nil {cs : List Char} (single : '\n' ∉ cs) : afterLine cs = [] := by
  have all : cs.dropWhile (fun c => decide (c ≠ '\n')) = [] := by
    refine List.dropWhile_eq_nil_iff.2 fun c member => decide_eq_true ?_
    rintro rfl
    exact single member
  rw [afterLine, all, List.drop_nil]

namespace Unpadded

variable {cs : List Char}

theorem afterLine (unpadded : Unpadded cs) (more : '\n' ∈ cs) : Unpadded (Text.afterLine cs) := by
  have suffix : Text.afterLine cs <:+ cs :=
    ⟨firstLine cs ++ ['\n'], by simpa using firstLine_append_afterLine more⟩
  refine ⟨fun pair => unpadded.inside (pair.trans suffix.isInfix), fun closing => ?_⟩
  obtain ⟨before, split⟩ := List.getLast?_eq_some_iff.1 closing
  apply unpadded.atEnd
  rw [← firstLine_append_afterLine more, split, ← List.cons_append, ← List.append_assoc]
  exact List.getLast?_concat

/-- The first of several lines gives up the same, cut either way. -/
theorem trimEnd_firstLine (unpadded : Unpadded cs) (more : '\n' ∈ cs) :
    trimEnd (firstLine cs) = dropReturn (firstLine cs) := by
  refine trimEnd_eq_dropReturn (newline_not_mem_firstLine cs) ?_
  rintro ⟨before, split⟩
  apply unpadded.inside
  refine ⟨before, Text.afterLine cs, ?_⟩
  calc before ++ ['\r', '\r', '\n'] ++ Text.afterLine cs
      = (before ++ ['\r', '\r']) ++ '\n' :: Text.afterLine cs := by simp
    _ = firstLine cs ++ '\n' :: Text.afterLine cs := by rw [split]
    _ = cs := firstLine_append_afterLine more

/-- The only line gives up nothing. -/
theorem trimEnd_line (unpadded : Unpadded cs) (single : '\n' ∉ cs) :
    trimEnd (firstLine cs) = cs := by
  rw [firstLine_eq_self single]
  exact trimEnd_eq_self single unpadded.atEnd

end Unpadded

end Script.Text
