/-
# Script.Proofs.Text.Order -- texts in the order of their bytes

Texts are ordered character by character, and a character is less than another if its
code point is.  The encoding keeps that order: of two different characters the lesser one has
the lesser bytes, whatever follows either (`encode_cons_lt_encode_cons`), so two texts
are ordered as their bytes are (`lt_iff_toUTF8_lt`).  Texts of one character are ordered as the
code points of these are (`singleton_lt_singleton_iff`).
-/
import Mathlib.Data.String.Basic
import Script.Proofs.Text.Lines

namespace Script.Text

set_option autoImplicit false

theorem cons_ofNat_lt_cons_ofNat {m n : Nat} {bs bs' : List UInt8} (fits : m < 256)
    (fits' : n < 256) :
    UInt8.ofNat m :: bs < UInt8.ofNat n :: bs' ↔ m < n ∨ m = n ∧ bs < bs' := by
  rw [List.cons_lt_cons_iff, UInt8.lt_iff_toNat_lt, ← UInt8.toNat_inj,
    UInt8.toNat_ofNat_of_lt' fits, UInt8.toNat_ofNat_of_lt' fits']

/-- There are seventeen planes of code points. -/
theorem code_lt (c : Char) : c.toNat < 1114112 := by
  rcases c.valid with low | ⟨-, high⟩
  · exact Nat.lt_trans low (by decide)
  · exact high

/-- The first byte tells how long an encoding is, and is greater where that is longer; in two of
one length the first bytes that differ hold the highest bits that do. -/
theorem encode_cons_lt_encode_cons {c d : Char} (less : c < d) (cs ds : List Char) :
    encode (c :: cs) < encode (d :: ds) := by
  have code : c.val.toNat < d.val.toNat := less
  have bound : d.val.toNat < 1114112 := code_lt d
  -- Six bits at a time, as they are taken.
  have twelve (k : Nat) : k / 4096 = k / 64 / 64 := by omega
  have eighteen (k : Nat) : k / 262144 = k / 64 / 64 / 64 := by omega
  rw [encode_cons, encode_cons]
  unfold String.utf8EncodeChar
  generalize c.val.toNat = m at code
  generalize d.val.toNat = n at code bound
  dsimp only
  split_ifs <;>
    simp (disch := omega) only [List.cons_append, List.nil_append, cons_ofNat_lt_cons_ofNat,
      twelve, eighteen] <;>
    omega

theorem encode_lt_encode {cs ds : List Char} (less : cs < ds) : encode cs < encode ds := by
  induction less with
  | @nil d ds =>
      obtain ⟨b, bs, some⟩ := List.exists_cons_of_ne_nil (encode_cons_ne_nil d ds)
      rw [some]
      exact List.nil_lt_cons b bs
  | rel less => exact encode_cons_lt_encode_cons less _ _
  | cons _ ih =>
      rw [encode_cons, encode_cons]
      exact List.append_left_lt ih

theorem encode_lt_encode_iff {cs ds : List Char} : encode cs < encode ds ↔ cs < ds := by
  refine ⟨fun less => ?_, encode_lt_encode⟩
  rcases lt_trichotomy cs ds with below | rfl | above
  · exact below
  · exact absurd less (List.lt_irrefl _)
  · exact absurd less (List.lt_asymm (encode_lt_encode above))

/-- Texts are ordered as their bytes are. -/
theorem lt_iff_toUTF8_lt {a b : String} :
    a < b ↔ a.toUTF8.data.toList < b.toUTF8.data.toList := by
  rw [← encode_toList, ← encode_toList, encode_lt_encode_iff, String.lt_iff_toList_lt]

theorem singleton_lt_singleton_iff {c d : Char} :
    String.singleton c < String.singleton d ↔ c.toNat < d.toNat := by
  rw [String.lt_iff_toList_lt, String.toList_singleton, String.toList_singleton,
    List.cons_lt_cons_iff]
  exact or_iff_left fun both => List.lt_irrefl _ both.2

end Script.Text
