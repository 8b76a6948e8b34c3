/-
This file proves when the text that a type shows still has a reference in it.

References are shown without their marks, so one would expect none to be left. But a text is read
once, from its start to its end, and every reference ends at the next closing brace. A path with
another reference in it is cut off at the end of the inner one, whose beginning is then shown as it
stands. Where marks are taken away, what stood before and behind them comes together, and an opening
brace may meet a number sign. And a text that starts with a number sign is a path as a whole, in
which nothing is looked for. In balanced texts there is no other way.

The braces of what is shown are balanced again, because an opening brace is taken away with a
closing one, and no other closing brace stands between them. So whatever begins a reference in it
is closed somewhere, and it is enough to look for the beginnings.
-/

import DocComments.Proofs.TypeReferences

namespace DocComments

/-! ### Pairs in texts that are put together -/

namespace Text

variable {first second : Char}

/-- Where the pieces are put together, the two characters come side by side, with one of them on
each side of the border. -/
def Joins (first second : Char) (pieces : List (List Char)) : Prop :=
  ∃ front back, pieces = front ++ back ∧ front.flatten.getLast? = some first ∧
    back.flatten.head? = some second

theorem pair_infix_append_iff {text rest : List Char} :
    [first, second] <:+: text ++ rest ↔
      [first, second] <:+: text ∨ [first, second] <:+: rest ∨
        text.getLast? = some first ∧ rest.head? = some second := by
  have border : (∀ c ∈ text.getLast?, ∀ d ∈ rest.head?, Apart first second c d) ↔
      ¬ (text.getLast? = some first ∧ rest.head? = some second) := by
    constructor
    · rintro apart ⟨isLast, isHead⟩
      exact apart first isLast second isHead ⟨rfl, rfl⟩
    · rintro notBoth c isLast d isHead ⟨rfl, rfl⟩
      exact notBoth ⟨isLast, isHead⟩
  rw [← not_iff_not, ← isChain_apart_iff, List.isChain_append, isChain_apart_iff,
    isChain_apart_iff, border, not_or, not_or]

/-- A pair in a text that is put together stands in a piece or across a border. -/
theorem pair_infix_flatten_iff {pieces : List (List Char)} :
    [first, second] <:+: pieces.flatten ↔
      (∃ piece ∈ pieces, [first, second] <:+: piece) ∨ Joins first second pieces := by
  constructor
  · intro inside
    induction pieces with
    | nil => cases List.infix_nil.mp inside
    | cons piece pieces inductionHypothesis =>
      rw [List.flatten_cons] at inside
      rcases pair_infix_append_iff.mp inside with inPiece | inRest | ⟨isLast, isHead⟩
      · exact .inl ⟨piece, List.mem_cons_self, inPiece⟩
      · rcases inductionHypothesis inRest with ⟨own, member, inOwn⟩ | ⟨front, back, rfl, joins⟩
        · exact .inl ⟨own, List.mem_cons_of_mem _ member, inOwn⟩
        · refine .inr ⟨piece :: front, back, rfl, ?_, joins.2⟩
          rw [List.flatten_cons, List.getLast?_append, joins.1, Option.some_or]
      · refine .inr ⟨[piece], pieces, rfl, ?_, isHead⟩
        rwa [List.flatten_singleton]
  · rintro (⟨piece, member, inPiece⟩ | ⟨front, back, rfl, isLast, isHead⟩)
    · exact inPiece.trans (List.infix_of_mem_flatten member)
    · rw [List.flatten_append]
      exact pair_infix_append_iff.mpr (.inr (.inr ⟨isLast, isHead⟩))

end Text

namespace TagValue

open Text

/-! ### Balanced texts -/

/-- What follows a text may be replaced by anything that closes as many braces. -/
theorem closes_append_congr {first second : List Char}
    (same : ∀ depth, Closes depth first ↔ Closes depth second) (front : List Char) (depth : Nat) :
    Closes depth (front ++ first) ↔ Closes depth (front ++ second) := by
  induction front generalizing depth with
  | nil => exact same depth
  | cons c front inductionHypothesis =>
    rw [List.cons_append, List.cons_append]
    by_cases closing : c = '}'
    · subst closing
      cases depth with
      | zero => exact iff_of_false (not_closes_zero _) (not_closes_zero _)
      | succ depth => rw [closes_closing_iff, closes_closing_iff, inductionHypothesis]
    · by_cases opening : c = '{'
      · subst opening
        rw [closes_opening_iff, closes_opening_iff, inductionHypothesis]
      · rw [closes_other_iff closing opening, closes_other_iff closing opening,
          inductionHypothesis]

theorem closes_append_of_whiteSpace {space : List Char}
    (isSpace : ∀ c ∈ space, isWhiteSpace c = true) (depth : Nat) (rest : List Char) :
    Closes depth (space ++ rest) ↔ Closes depth rest := by
  induction space with
  | nil => rfl
  | cons c space inductionHypothesis =>
    obtain ⟨head, tail⟩ := List.forall_mem_cons.mp isSpace
    have noClosing : c ≠ '}' := by
      rintro rfl
      cases head
    have noOpening : c ≠ '{' := by
      rintro rfl
      cases head
    rw [List.cons_append, closes_other_iff noClosing noOpening, inductionHypothesis tail]

theorem balanced_trim_iff {text : List Char} : Balanced (trim text) ↔ Balanced text := by
  obtain ⟨before, after, parts, inBefore, inAfter, -⟩ := exists_trim text
  have noneAfter (depth : Nat) : Closes depth after ↔ Closes depth [] := by
    rw [← closes_append_of_whiteSpace inAfter depth [], List.append_nil]
  rw [balanced_iff_closes, balanced_iff_closes]
  conv_rhs => rw [parts]
  rw [List.append_assoc, closes_append_of_whiteSpace inBefore, closes_append_congr noneAfter,
    List.append_nil]

/-- The next closing brace closes one brace, wherever it stands. -/
theorem closes_next_closing_iff {path : List Char} (within : '}' ∉ path) (depth : Nat)
    (rest : List Char) :
    Closes (depth + 1) (path ++ '}' :: rest) ↔ Closes depth (path ++ rest) := by
  induction path generalizing depth with
  | nil => exact closes_closing_iff depth rest
  | cons c path inductionHypothesis =>
    obtain ⟨noClosing, tail⟩ := not_or.mp (mt List.mem_cons.mpr within)
    rw [List.cons_append, List.cons_append]
    by_cases opening : c = '{'
    · subst opening
      rw [closes_opening_iff, closes_opening_iff, inductionHypothesis tail]
    · rw [closes_other_iff (Ne.symm noClosing) opening,
        closes_other_iff (Ne.symm noClosing) opening, inductionHypothesis tail]

/-- Taking away the marks of references leaves as many braces to be closed. -/
theorem ReferringText.closes_write_iff (parts : ReferringText) (depth : Nat) :
    Closes depth parts.write ↔ Closes depth parts.shown := by
  induction parts generalizing depth with
  | plain last clear => rfl
  | cons reference parts inductionHypothesis =>
    have noSign : ('#' : Char) ≠ '}' ∧ ('#' : Char) ≠ '{' := by decide
    have marks (depth : Nat) :
        Closes depth ('{' :: '#' :: (reference.path ++ '}' :: parts.write)) ↔
          Closes depth (reference.path ++ parts.shown) := by
      rw [closes_opening_iff, closes_other_iff noSign.1 noSign.2,
        closes_next_closing_iff reference.within, closes_append_congr inductionHypothesis]
    have whole : (parts.cons reference).write =
        reference.plain ++ '{' :: '#' :: (reference.path ++ '}' :: parts.write) := by
      simp [write_cons, Reference.write]
    rw [whole, shown_cons, Reference.shown, List.append_assoc, closes_append_congr marks]

/-- In a balanced text every opening brace is closed behind it. -/
theorem Balanced.closing_mem {text front after : List Char} (balanced : Balanced text)
    (parts : text = front ++ '{' :: after) : '}' ∈ after := by
  by_contra notClosed
  have all := balanced.all
  have bound := balanced.front front ⟨_, parts.symm⟩
  rw [parts, List.count_append, List.count_append, List.count_cons_self,
    List.count_cons_of_ne (by decide), List.count_eq_zero_of_not_mem notClosed] at all
  omega

/-- Up to the end of a balanced text, whatever begins a reference is one. -/
theorem Balanced.hasReference_of_suffix {text ending : List Char} (balanced : Balanced text)
    (behind : ending <:+ text) (begins : ['{', '#'] <:+: ending) : HasReference ending := by
  obtain ⟨front, rfl⟩ := behind
  obtain ⟨before, rest, rfl⟩ := begins
  have whole : front ++ (before ++ ['{', '#'] ++ rest) =
      (front ++ before) ++ '{' :: '#' :: rest := by
    simp
  have closing : '}' ∈ rest := by
    simpa using balanced.closing_mem whole
  obtain ⟨path, after, rfl⟩ := List.append_of_mem closing
  exact ⟨before, path, after, List.append_assoc before _ _⟩

theorem infix_of_hasReference {text : List Char} (refers : HasReference text) :
    ['{', '#'] <:+: text := by
  obtain ⟨before, path, after, rfl⟩ := refers
  exact ⟨before, path ++ '}' :: after, List.append_assoc before _ _⟩

theorem Balanced.hasReference_iff {text : List Char} (balanced : Balanced text) :
    HasReference text ↔ ['{', '#'] <:+: text :=
  ⟨infix_of_hasReference, balanced.hasReference_of_suffix List.suffix_rfl⟩

/-! ### References that are left -/

namespace ReferringText

/-- The plain texts and the paths in order. -/
def pieces (parts : ReferringText) : List (List Char) :=
  parts.references.flatMap (fun reference => [reference.plain, reference.path]) ++ [parts.last]

theorem pieces_cons (reference : Reference) (parts : ReferringText) :
    (parts.cons reference).pieces = reference.plain :: reference.path :: parts.pieces := rfl

theorem flatten_pieces (parts : ReferringText) : parts.pieces.flatten = parts.shown := by
  induction parts with
  | plain last clear => exact List.append_nil last
  | cons reference parts inductionHypothesis =>
    rw [pieces_cons, List.flatten_cons, List.flatten_cons, inductionHypothesis, shown_cons,
      Reference.shown, List.append_assoc]

theorem mem_pieces_iff {parts : ReferringText} {piece : List Char} :
    piece ∈ parts.pieces ↔
      (∃ reference ∈ parts.references, piece = reference.plain ∨ piece = reference.path) ∨
        piece = parts.last := by
  simp [pieces]

/-- What is shown has the beginning of a reference in it if a path has, or if two pieces make
one. -/
theorem infix_shown_iff {parts : ReferringText} (balanced : Balanced parts.write) :
    ['{', '#'] <:+: parts.shown ↔
      (∃ reference ∈ parts.references, ['{', '#'] <:+: reference.path) ∨
        Joins '{' '#' parts.pieces := by
  rw [← flatten_pieces, pair_infix_flatten_iff]
  refine or_congr_left ⟨?_, ?_⟩
  · rintro ⟨piece, member, inside⟩
    rcases mem_pieces_iff.mp member with ⟨reference, isOne, rfl | rfl⟩ | rfl
    · exact absurd inside reference.clear
    · exact ⟨reference, isOne, inside⟩
    · exact absurd (balanced.hasReference_of_suffix (List.suffix_append _ _) inside) parts.clear
  · rintro ⟨reference, isOne, inside⟩
    exact ⟨reference.path, mem_pieces_iff.mpr (.inl ⟨reference, isOne, .inr rfl⟩), inside⟩

end ReferringText

/-- When a balanced text is shown with a reference in it. What is shown is balanced. It has a
reference if the text starts with a number sign and another begins behind it; and if the text does
not start so, then if another reference begins in a path, or an opening brace meets a number sign
where marks were taken away. -/
theorem typeRef_leaves_reference_iff {text : List Char} (balanced : Balanced text) :
    Balanced (typeRef text).typeName.toList ∧
    (HasReference (typeRef text).typeName.toList ↔
      (∃ path, trim text = '#' :: path ∧ ['{', '#'] <:+: path) ∨
      (trim text).head? ≠ some '#' ∧ ∃ parts : ReferringText, parts.write = trim text ∧
        ((∃ reference ∈ parts.references, ['{', '#'] <:+: reference.path) ∨
          Joins '{' '#' parts.pieces)) := by
  have trimmed := balanced_trim_iff.mpr balanced
  by_cases signed : (trim text).head? = some '#'
  · obtain ⟨path, isPath⟩ : ∃ path, trim text = '#' :: path := List.head?_eq_some_iff.mp signed
    have inPath : Balanced path := by
      rw [isPath, balanced_iff_closes, closes_other_iff (by decide) (by decide),
        ← balanced_iff_closes] at trimmed
      exact trimmed
    rw [typeRef_of_sign isPath, String.toList_ofList, inPath.hasReference_iff]
    refine ⟨inPath, fun begins => .inl ⟨path, isPath, begins⟩, ?_⟩
    rintro (⟨own, isOwn, begins⟩ | ⟨noSign, -⟩)
    · rw [isPath] at isOwn
      cases isOwn
      exact begins
    · exact absurd signed noSign
  · obtain ⟨parts, written, unique⟩ := ReferringText.existsUnique_write (trim text)
    have inWritten : Balanced parts.write := written ▸ trimmed
    have inShown : Balanced parts.shown := by
      rwa [balanced_iff_closes, ← parts.closes_write_iff, ← balanced_iff_closes]
    rw [typeRef_of_parts written signed, String.toList_ofList, inShown.hasReference_iff,
      ReferringText.infix_shown_iff inWritten]
    refine ⟨inShown, fun left => .inr ⟨signed, parts, written, left⟩, ?_⟩
    rintro (⟨path, isPath, -⟩ | ⟨-, own, isOwn, left⟩)
    · exact absurd (congrArg List.head? isPath) signed
    · rwa [unique own isOwn] at left

/-- Between the braces of another text a reference without a path is taken away, and the brace
before it meets the number sign behind it. -/
theorem typeRef_leaves_reference_iff_joined :
    Balanced "\x7b\x7b#\x7d#x\x7d".toList ∧
    HasReference (typeRef "\x7b\x7b#\x7d#x\x7d".toList).typeName.toList := by
  have balanced : Balanced "\x7b\x7b#\x7d#x\x7d".toList := by decide
  have parts : ∃ parts : ReferringText, parts.write = trim "\x7b\x7b#\x7d#x\x7d".toList ∧
      Joins '{' '#' parts.pieces :=
    ⟨⟨[⟨['{'], [], by decide, by decide⟩], "#x\x7d".toList, by decide⟩, rfl,
      [['{']], [[], "#x\x7d".toList], rfl, rfl, rfl⟩
  obtain ⟨parts, written, joins⟩ := parts
  obtain ⟨-, left⟩ := typeRef_leaves_reference_iff balanced
  exact ⟨balanced, left.mpr (.inr ⟨by decide, parts, written, .inr joins⟩)⟩

/-- A reference inside the path of another one is left. -/
theorem typeRef_leaves_nested_reference :
    ¬ ∀ text, Balanced text → ¬ HasReference (typeRef text).typeName.toList := by
  intro always
  exact always "\x7b#A\x7d|\x7b#B\x7b#C\x7d\x7d".toList (by decide)
    ⟨"A|B".toList, "C".toList, [], rfl⟩

end TagValue

end DocComments
