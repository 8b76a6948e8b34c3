/-
This file proves how byte offsets behave when a text is continued.

A cut at a byte offset, if there is one, leaves a beginning of exactly that many bytes, and it
does not depend on what follows the offset. So a span that ends inside a text covers the same
characters when more text is added.
-/

import DocComments.Text.Bytes
import Mathlib.Data.List.Basic

namespace DocComments

namespace Text

@[simp]
theorem byteLength_nil : byteLength [] = 0 := rfl

@[simp]
theorem byteLength_cons (c : Char) (text : List Char) :
    byteLength (c :: text) = c.utf8Size + byteLength text := rfl

@[simp]
theorem byteLength_append (first second : List Char) :
    byteLength (first ++ second) = byteLength first + byteLength second := by
  induction first with
  | nil => simp
  | cons c first inductionHypothesis => simp [inductionHypothesis, Nat.add_assoc]

theorem splitAtByte?_zero (text : List Char) : splitAtByte? 0 text = some ([], text) := by
  cases text with
  | nil => rfl
  | cons => rfl

theorem splitAtByte?_cons {offset : Nat} (positive : offset ≠ 0) (c : Char) (rest : List Char) :
    splitAtByte? offset (c :: rest) =
      if c.utf8Size ≤ offset then
        (splitAtByte? (offset - c.utf8Size) rest).map fun (before, after) => (c :: before, after)
      else none := by
  rw [splitAtByte?, if_neg (by simpa using positive)]
  simp only [Nat.ble_eq]

/-- The two parts of a cut are the text again, and the first has as many bytes as asked for. -/
theorem append_of_splitAtByte? {offset : Nat} {text before after : List Char}
    (cut : splitAtByte? offset text = some (before, after)) :
    before ++ after = text ∧ byteLength before = offset := by
  induction text generalizing offset before with
  | nil =>
    by_cases start : offset = 0
    · subst start
      cases cut
      exact ⟨rfl, rfl⟩
    · rw [splitAtByte?, if_neg (by simpa using start)] at cut
      cases cut
  | cons c rest inductionHypothesis =>
    by_cases start : offset = 0
    · subst start
      cases cut
      exact ⟨rfl, rfl⟩
    · rw [splitAtByte?_cons start] at cut
      split at cut
      · rename_i fits
        obtain ⟨⟨inner, tail⟩, found, same⟩ := Option.map_eq_some_iff.mp cut
        cases same
        obtain ⟨joined, size⟩ := inductionHypothesis found
        refine ⟨by rw [List.cons_append, joined], ?_⟩
        rw [byteLength_cons, size, Nat.add_sub_cancel' fits]
      · cases cut

theorem splitAtByte?_byteLength (before after : List Char) :
    splitAtByte? (byteLength before) (before ++ after) = some (before, after) := by
  induction before with
  | nil => exact splitAtByte?_zero after
  | cons c before inductionHypothesis =>
    have size := c.utf8Size_pos
    rw [List.cons_append, byteLength_cons, splitAtByte?_cons (by omega),
      if_pos (Nat.le_add_right _ _), Nat.add_sub_cancel_left, inductionHypothesis]
    rfl

/-- A cut inside a text is the same when the text goes on. -/
theorem splitAtByte?_append {offset : Nat} {text : List Char} (inside : offset ≤ byteLength text)
    (more : List Char) :
    splitAtByte? offset (text ++ more) =
      (splitAtByte? offset text).map fun (before, after) => (before, after ++ more) := by
  induction text generalizing offset with
  | nil =>
    obtain rfl : offset = 0 := Nat.le_zero.mp inside
    rw [List.nil_append, splitAtByte?_zero]
    rfl
  | cons c rest inductionHypothesis =>
    by_cases start : offset = 0
    · subst start
      rfl
    · rw [List.cons_append, splitAtByte?_cons start, splitAtByte?_cons start]
      split
      · have shorter : offset - c.utf8Size ≤ byteLength rest := by
          rw [byteLength_cons] at inside
          omega
        rw [inductionHypothesis shorter, Option.map_map, Option.map_map]
        rfl
      · rfl

end Text

/-- A span that ends inside a text covers the same part of it when the text goes on. -/
theorem Span.slice?_append {span : Span} {text : List Char}
    (inside : span.stop ≤ Text.byteLength text) (more : List Char) :
    span.slice? (text ++ more) = span.slice? text := by
  have ordered := span.ordered
  simp only [Span.slice?, Option.bind_eq_bind]
  rw [Text.splitAtByte?_append (Nat.le_trans ordered inside)]
  cases cut : Text.splitAtByte? span.start text with
  | none => rfl
  | some parts =>
    obtain ⟨joined, size⟩ := Text.append_of_splitAtByte? cut
    have rest : span.length ≤ Text.byteLength parts.2 := by
      rw [← joined, Text.byteLength_append, size] at inside
      rw [Span.length]
      omega
    simp only [Option.map_some, Option.bind_some]
    rw [Text.splitAtByte?_append rest]
    cases Text.splitAtByte? span.length parts.2 with
    | none => rfl
    | some => rfl

end DocComments
