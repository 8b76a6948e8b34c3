/-
This file proves that texts are compared as their bytes are.

Names are ordered by code point, character by character. What is compared in storage are the bytes
of the names in UTF-8, and the two orders are the same: the first byte of a character tells how
many bytes follow, and more of them for higher code points; the bytes after it hold the digits of
the code point to the base 64, the highest ones first. So of two different characters neither is
encoded as a beginning of the other, and the first byte in which they differ decides like the code
points do.
-/

import DocComments.Proofs.ElementLists
import Mathlib.Data.List.Lex

namespace DocComments.Text

/-- The bytes of a text in UTF-8. -/
def bytesOf (text : String) : List UInt8 :=
  text.toUTF8.data.toList

/-- A text stands before another one in the order of their bytes: the first different bytes decide,
and a text stands before every longer one that it begins. -/
def BytesBefore (first second : String) : Prop :=
  List.Lex (· < ·) (bytesOf first) (bytesOf second)

theorem bytesOf_eq_flatMap (text : String) :
    bytesOf text = text.toList.flatMap String.utf8EncodeChar := by
  have encoded : text.toUTF8 = text.toList.utf8Encode := by
    rw [String.toUTF8, ← String.toByteArray_ofList, String.ofList_toList]
  rw [bytesOf, encoded, List.utf8Encode, List.data_toByteArray]

theorem BytesBefore.asymm {first second : String} (before : BytesBefore first second) :
    ¬ BytesBefore second first :=
  List.lex_asymm (fun earlier => UInt8.lt_asymm earlier) before

/-! ### Characters -/

theorem code_lt (c : Char) : c.val.toNat < 0x110000 := by
  have valid := c.valid
  simp only [UInt32.isValidChar, Nat.isValidChar] at valid
  omega

/-- The bytes of characters compare like their code points, whatever follows them. -/
theorem lex_utf8EncodeChar {c d : Char} (less : c.toNat < d.toNat) (first second : List UInt8) :
    List.Lex (· < ·) (String.utf8EncodeChar c ++ first) (String.utf8EncodeChar d ++ second) := by
  have codesLess : c.val.toNat < d.val.toNat := less
  have bound := code_lt d
  simp only [String.utf8EncodeChar]
  generalize c.val.toNat = low at *
  generalize d.val.toNat = high at *
  -- Each of the two may have one to four bytes; where the first bytes agree, so do the counts.
  split_ifs <;>
    simp (disch := omega) only [List.cons_append, List.nil_append, List.cons_lex_cons_iff,
      UInt8.lt_iff_toNat_lt, ← UInt8.toNat_inj, UInt8.toNat_ofNat', Nat.mod_eq_of_lt] <;>
    omega

/-! ### Texts -/

theorem lex_flatMap_utf8EncodeChar {first second : List Char}
    (before : notAfter first second = true) (different : first ≠ second) :
    List.Lex (· < ·) (first.flatMap String.utf8EncodeChar)
      (second.flatMap String.utf8EncodeChar) := by
  induction first generalizing second with
  | nil =>
    obtain ⟨d, rest, rfl⟩ := List.exists_cons_of_ne_nil (Ne.symm different)
    rw [List.flatMap_nil, List.flatMap_cons]
    obtain ⟨byte, bytes, encoded⟩ :=
      List.exists_cons_of_ne_nil (String.utf8EncodeChar_ne_nil (c := d))
    rw [encoded]
    exact .nil
  | cons c first inductionHypothesis =>
    cases second with
    | nil => cases before
    | cons d second =>
      rw [List.flatMap_cons, List.flatMap_cons]
      rcases notAfter_cons.mp before with less | ⟨rfl, restBefore⟩
      · exact lex_utf8EncodeChar less _ _
      · have restDifferent : first ≠ second := fun same => different (same ▸ rfl)
        exact List.Lex.append_left _ (inductionHypothesis restBefore restDifferent) _

/-- Of two different names the one that is not after the other stands before it by its bytes. -/
theorem bytesBefore_of_notAfter {first second : String}
    (before : notAfter first.toList second.toList = true) (different : first ≠ second) :
    BytesBefore first second := by
  rw [BytesBefore, bytesOf_eq_flatMap, bytesOf_eq_flatMap]
  exact lex_flatMap_utf8EncodeChar before (mt String.toList_inj.mp different)

end DocComments.Text
