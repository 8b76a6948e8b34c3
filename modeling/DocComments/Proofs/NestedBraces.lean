/-
This file proves which texts in braces are read, and where they end.

A text is balanced if it has as many opening as closing braces, and no part from its start on has
more closing ones. The text that an opening brace starts is read by counting how many braces are
open, which is the same: the reader goes on as long as no part has more closing braces than opening
ones, and the first closing brace too many stops it, exactly behind a balanced text. So there is
one place at most where a text in braces ends.

What is left of a balanced text after some characters is balanced but for a number of braces that
are still to be closed. Of such texts it can be said how each character changes that number.
-/

import Mathlib.Data.List.Infix
import DocComments.Proofs.Bytes
import DocComments.TagValue.Braces

namespace DocComments.TagValue

/-- A text that closes `depth` braces more than it opens, and at no place more than that. -/
structure Closes (depth : Nat) (text : List Char) : Prop where
  all : text.count '}' = text.count '{' + depth
  front : ∀ front, front <+: text → front.count '}' ≤ front.count '{' + depth

/-- A text with as many opening as closing braces, of which no beginning has more closing than
opening ones. -/
structure Balanced (text : List Char) : Prop where
  all : text.count '{' = text.count '}'
  front : ∀ front, front <+: text → front.count '}' ≤ front.count '{'

theorem balanced_iff_closes (text : List Char) : Balanced text ↔ Closes 0 text :=
  ⟨fun balanced => ⟨balanced.all.symm, balanced.front⟩,
    fun closes => ⟨closes.all.symm, closes.front⟩⟩

/-! ### One character at a time -/

/-- A character in front changes the number of braces that are to be closed. -/
theorem closes_cons_iff {depth deeper : Nat} {c : Char}
    (change : [c].count '}' + deeper = [c].count '{' + depth) (text : List Char) :
    Closes depth (c :: text) ↔ Closes deeper text := by
  have closing (text : List Char) : (c :: text).count '}' = [c].count '}' + text.count '}' := by
    rw [← List.singleton_append, List.count_append]
  have opening (text : List Char) : (c :: text).count '{' = [c].count '{' + text.count '{' := by
    rw [← List.singleton_append, List.count_append]
  constructor
  · intro closes
    refine ⟨?_, fun front inside => ?_⟩
    · have all := closes.all
      rw [closing, opening] at all
      omega
    · have bound := closes.front (c :: front) (List.cons_prefix_cons.mpr ⟨rfl, inside⟩)
      rw [closing, opening] at bound
      omega
  · intro closes
    refine ⟨?_, fun front inside => ?_⟩
    · rw [closing, opening, closes.all]
      omega
    · rcases List.prefix_cons_iff.mp inside with rfl | ⟨front, rfl, inText⟩
      · exact Nat.zero_le _
      · have bound := closes.front front inText
        rw [closing, opening]
        omega

theorem not_closes_zero (text : List Char) : ¬ Closes 0 ('}' :: text) := by
  intro closes
  exact absurd (closes.front ['}'] (List.prefix_append ['}'] text)) (by decide)

theorem closes_closing_iff (depth : Nat) (text : List Char) :
    Closes (depth + 1) ('}' :: text) ↔ Closes depth text :=
  closes_cons_iff (by simp; omega) text

theorem closes_opening_iff (depth : Nat) (text : List Char) :
    Closes depth ('{' :: text) ↔ Closes (depth + 1) text :=
  closes_cons_iff (by simp; omega) text

theorem closes_other_iff {c : Char} (noClosing : c ≠ '}') (noOpening : c ≠ '{') (depth : Nat)
    (text : List Char) : Closes depth (c :: text) ↔ Closes depth text :=
  closes_cons_iff (by simp [noClosing, noOpening]) text

/-! ### The count of open braces -/

namespace BraceCount

/-- The count behind a text of which all was read. -/
def after (count : BraceCount) (text : List Char) : BraceCount :=
  ⟨count.depth + text.count '{' - text.count '}', count.offset + Text.byteLength text⟩

@[simp]
theorem after_nil (count : BraceCount) : count.after [] = count := by
  simp [after]

theorem after_cons (count : BraceCount) (c : Char) (text : List Char) :
    count.after (c :: text) = (count.after [c]).after text := by
  rw [← List.singleton_append]
  simp only [after, List.count_append, Text.byteLength_append, mk.injEq]
  omega

theorem depthAfter_eq (count : BraceCount) (c : Char) :
    count.depthAfter c = (count.after [c]).depth := by
  unfold depthAfter after
  split
  · simp
  · simp
  · rename_i noOpening noClosing
    have opening : [c].count '{' = 0 := List.count_eq_zero.mpr (by simpa using Ne.symm noOpening)
    have closing : [c].count '}' = 0 := List.count_eq_zero.mpr (by simpa using Ne.symm noClosing)
    simp [opening, closing]

/-- The reader stops at the brace that closes the only open one, and goes on at every other
character. -/
theorem read_eq (count : BraceCount) (c : Char) :
    count.read c =
      if c = '}' ∧ count.depth = 1 then .error ⟨0, count.offset⟩ else .ok (count.after [c]) := by
  have closed : c = '}' ∧ count.depthAfter c = 0 ↔ c = '}' ∧ count.depth = 1 := by
    refine and_congr_right fun closing => ?_
    simp only [closing, depthAfter]
    omega
  unfold read
  simp only [Bool.and_eq_true, beq_iff_eq, closed]
  split
  · rename_i last
    rw [(closed.mpr last).2]
  · rw [depthAfter_eq]
    rfl

variable {count reached stop : BraceCount}

theorem read_eq_error_iff {c : Char} :
    count.read c = .error stop ↔ c = '}' ∧ count.depth = 1 ∧ stop = ⟨0, count.offset⟩ := by
  rw [read_eq]
  split
  · rename_i last
    simp [last, eq_comm]
  · rename_i goesOn
    simp only [reduceCtorEq, false_iff]
    exact fun stops => goesOn ⟨stops.1, stops.2.1⟩

/-- A brace is still open behind every character at which the reader goes on. -/
theorem depth_after_pos_iff {c : Char} (opened : 0 < count.depth) :
    0 < (count.after [c]).depth ↔ ¬ (c = '}' ∧ count.depth = 1) := by
  rw [← depthAfter_eq]
  by_cases closing : c = '}'
  · subst closing
    simp only [depthAfter, true_and]
    omega
  · refine iff_of_true ?_ fun stops => closing stops.1
    unfold depthAfter
    split
    · omega
    · contradiction
    · exact opened

/-- The reader goes on as long as a brace is open, and has then counted the braces of the text. -/
theorem foldlM_read_eq_ok_iff {text : List Char} (opened : 0 < count.depth) :
    text.foldlM read count = .ok reached ↔
      (∀ front, front <+: text → 0 < (count.after front).depth) ∧ reached = count.after text := by
  induction text generalizing count with
  | nil =>
    rw [List.foldlM_nil, after_nil]
    constructor
    · intro ended
      cases ended
      refine ⟨fun front inside => ?_, rfl⟩
      rwa [List.prefix_nil.mp inside, after_nil]
    · rintro ⟨-, rfl⟩
      rfl
  | cons c text inductionHypothesis =>
    rw [List.foldlM_cons, read_eq]
    by_cases stops : c = '}' ∧ count.depth = 1
    · rw [if_pos stops]
      refine iff_of_false nofun fun going => ?_
      have stillOpen := going.1 [c] (List.cons_prefix_cons.mpr ⟨rfl, List.nil_prefix⟩)
      exact (depth_after_pos_iff opened).mp stillOpen stops
    · have stillOpen := (depth_after_pos_iff opened).mpr stops
      have behind : (∀ front, front <+: c :: text → 0 < (count.after front).depth) ↔
          ∀ front, front <+: text → 0 < ((count.after [c]).after front).depth := by
        constructor
        · intro going front inside
          rw [← after_cons]
          exact going (c :: front) (List.cons_prefix_cons.mpr ⟨rfl, inside⟩)
        · intro going front inside
          rcases List.prefix_cons_iff.mp inside with rfl | ⟨front, rfl, inText⟩
          · rwa [after_nil]
          · rw [after_cons]
            exact going front inText
      rw [if_neg stops, count.after_cons c text, behind]
      exact inductionHypothesis stillOpen

end BraceCount

/-- A fold fails at the first item that is refused. -/
theorem foldlM_eq_error_iff {State Item Error : Type} {step : State → Item → Except Error State}
    {items : List Item} {state : State} {refused : Error} :
    items.foldlM step state = .error refused ↔
      ∃ front item rest next, items = front ++ item :: rest ∧
        front.foldlM step state = .ok next ∧ step next item = .error refused := by
  constructor
  · intro failed
    induction items generalizing state with
    | nil => cases failed
    | cons item items inductionHypothesis =>
      rw [List.foldlM_cons] at failed
      cases first : step state item with
      | error =>
        rw [first] at failed
        cases failed
        exact ⟨[], item, items, state, rfl, rfl, first⟩
      | ok following =>
        rw [first] at failed
        obtain ⟨front, last, rest, next, rfl, taken, refuses⟩ := inductionHypothesis failed
        refine ⟨item :: front, last, rest, next, rfl, ?_, refuses⟩
        rw [List.foldlM_cons, first]
        exact taken
  · rintro ⟨front, item, rest, next, rfl, taken, refuses⟩
    rw [List.foldlM_append, taken]
    change (item :: rest).foldlM step next = _
    rw [List.foldlM_cons, refuses]
    rfl

/-- The reader goes on as long as no part of the text from its start on has more closing than
opening braces. -/
theorem countBraces_eq_ok_iff {text : List Char} {reached : BraceCount} :
    countBraces text = .ok reached ↔
      (∀ front, front <+: text → front.count '}' ≤ front.count '{') ∧
        reached = BraceCount.start.after text := by
  rw [countBraces, BraceCount.foldlM_read_eq_ok_iff (by decide)]
  refine and_congr_left' (forall₂_congr fun front _ => ?_)
  simp only [BraceCount.after, BraceCount.start]
  omega

theorem balanced_iff_countBraces (text : List Char) :
    Balanced text ↔ countBraces text = .ok ⟨1, Text.byteLength text⟩ := by
  rw [countBraces_eq_ok_iff]
  simp only [BraceCount.after, BraceCount.start, BraceCount.mk.injEq, Nat.zero_add, and_true]
  constructor
  · intro balanced
    have all := balanced.all
    exact ⟨balanced.front, by omega⟩
  · rintro ⟨front, depth⟩
    exact ⟨by omega, front⟩

instance (text : List Char) : Decidable (Balanced text) :=
  decidable_of_iff _ (balanced_iff_countBraces text).symm

/-- The reader stops behind a balanced text, at the offset of the brace that follows it. -/
theorem countBraces_eq_error_iff {text : List Char} {stop : BraceCount} :
    countBraces text = .error stop ↔
      ∃ body rest, text = body ++ '}' :: rest ∧ Balanced body ∧
        stop = ⟨0, Text.byteLength body⟩ := by
  rw [countBraces, foldlM_eq_error_iff]
  constructor
  · rintro ⟨body, c, rest, count, rfl, taken, stops⟩
    obtain ⟨rfl, last, rfl⟩ := BraceCount.read_eq_error_iff.mp stops
    have offset : count.offset = Text.byteLength body := by
      rw [(countBraces_eq_ok_iff.mp taken).2]
      exact Nat.zero_add _
    refine ⟨body, rest, rfl, (balanced_iff_countBraces body).mpr ?_, by rw [offset]⟩
    rw [← last, ← offset]
    exact taken
  · rintro ⟨body, rest, rfl, balanced, rfl⟩
    exact ⟨body, '}', rest, _, rfl, (balanced_iff_countBraces body).mp balanced,
      BraceCount.read_eq_error_iff.mpr ⟨rfl, rfl, rfl⟩⟩

/-! ### Texts in braces -/

theorem aroundBrace?_byteLength (body rest : List Char) :
    aroundBrace? (Text.byteLength body) (body ++ '}' :: rest) = some (body, rest) := by
  have behind : Text.splitAtByte? (Text.byteLength body + 1) (body ++ '}' :: rest) =
      some (body ++ ['}'], rest) := by
    have cut := Text.splitAtByte?_byteLength (body ++ ['}']) rest
    rwa [Text.byteLength_append, List.append_assoc] at cut
  rw [aroundBrace?, Text.splitAtByte?_byteLength, behind]
  rfl

theorem readBraced_of_balanced {body : List Char} (balanced : Balanced body) (rest : List Char) :
    readBraced ('{' :: (body ++ '}' :: rest)) = (some body, rest) := by
  have stops : countBraces (body ++ '}' :: rest) = .error ⟨0, Text.byteLength body⟩ :=
    countBraces_eq_error_iff.mpr ⟨body, rest, rfl, balanced, rfl⟩
  simp only [readBraced, stops, aroundBrace?_byteLength]

/-- Either the input starts with a balanced text in braces, which is read, or all of it is left. -/
theorem readBraced_cases (input : List Char) :
    (∃ body rest, input = '{' :: (body ++ '}' :: rest) ∧ Balanced body ∧
      readBraced input = (some body, rest)) ∨ readBraced input = (none, input) := by
  unfold readBraced
  split
  · rename_i text
    split
    · rename_i stop stops
      obtain ⟨body, rest, rfl, balanced, rfl⟩ := countBraces_eq_error_iff.mp stops
      rw [aroundBrace?_byteLength]
      exact .inl ⟨body, rest, rfl, balanced, rfl⟩
    · exact .inr rfl
  · exact .inr rfl

theorem readBraced_eq_some_iff {input body rest : List Char} :
    readBraced input = (some body, rest) ↔
      input = '{' :: (body ++ '}' :: rest) ∧ Balanced body := by
  constructor
  · intro found
    obtain ⟨own, ownRest, whole, balanced, read⟩ | nothing := readBraced_cases input
    · cases read.symm.trans found
      exact ⟨whole, balanced⟩
    · cases nothing.symm.trans found
  · rintro ⟨rfl, balanced⟩
    exact readBraced_of_balanced balanced rest

/-- A text in braces is read at the head of another if and only if it is balanced. -/
theorem braced?_eq_some_iff {text body rest : List Char} :
    braced? text = some (body, rest) ↔ text = '{' :: (body ++ '}' :: rest) ∧ Balanced body := by
  rw [← readBraced_eq_some_iff, braced?]
  rcases readBraced text with ⟨found, left⟩
  cases found with
  | none => simp
  | some => simp

/-! ### The reader as a whole -/

/-- While the reader goes on, a brace is open; where it stops, none is. -/
theorem depth_of_countBraces {text : List Char} {count : BraceCount} :
    (countBraces text = .ok count →
      count.depth = 1 + text.count '{' - text.count '}' ∧ 0 < count.depth) ∧
    (countBraces text = .error count → count.depth = 0) := by
  constructor
  · intro going
    obtain ⟨fronts, rfl⟩ := countBraces_eq_ok_iff.mp going
    have all := fronts text List.prefix_rfl
    refine ⟨rfl, ?_⟩
    simp only [BraceCount.after, BraceCount.start]
    omega
  · intro stops
    obtain ⟨body, rest, -, -, rfl⟩ := countBraces_eq_error_iff.mp stops
    rfl

/-- A text is read from the braces at the head of an input if and only if it is balanced, and there
is one such text at most. Otherwise all of the input is left. A run of the reader passes through the
counts of what stands behind the first brace, character by character, and the number of open braces
is positive in all of them until the reader stops at zero. -/
theorem readBraced_ends_at_matching_brace (input : List Char) :
    (∀ body rest, readBraced input = (some body, rest) ↔
      input = '{' :: (body ++ '}' :: rest) ∧ Balanced body) ∧
    (∀ body rest other otherRest,
      input = '{' :: (body ++ '}' :: rest) ∧ Balanced body →
      input = '{' :: (other ++ '}' :: otherRest) ∧ Balanced other →
        body = other ∧ rest = otherRest) ∧
    ((readBraced input).1 = none → (readBraced input).2 = input) ∧
    ∀ front count, '{' :: front <+: input →
      (countBraces front = .ok count →
        count.depth = 1 + front.count '{' - front.count '}' ∧ 0 < count.depth) ∧
      (countBraces front = .error count → count.depth = 0) := by
  refine ⟨fun body rest => readBraced_eq_some_iff, ?_, ?_, fun front count _ =>
    depth_of_countBraces⟩
  · intro body rest other otherRest first second
    have same := (readBraced_eq_some_iff.mpr first).symm.trans (readBraced_eq_some_iff.mpr second)
    exact ⟨Option.some.inj (congrArg Prod.fst same), congrArg Prod.snd same⟩
  · intro nothing
    obtain ⟨body, rest, -, -, read⟩ | left := readBraced_cases input
    · rw [read] at nothing
      cases nothing
    · rw [left]

/-- Braces in braces are part of the text, and the reader counts in bytes: the first character has
two of them. Without the last brace nothing is read. -/
theorem readBraced_ends_at_matching_brace_nested :
    readBraced "\x7bé\x7bb\x7dc\x7dd".toList = (some "é\x7bb\x7dc".toList, "d".toList) ∧
    (∀ other rest, "\x7bé\x7bb\x7dc\x7dd".toList = '{' :: (other ++ '}' :: rest) ∧ Balanced other →
      "é\x7bb\x7dc".toList = other ∧ "d".toList = rest) ∧
    readBraced "\x7bé\x7bb\x7dc".toList = (none, "\x7bé\x7bb\x7dc".toList) ∧
    (∃ count, countBraces "é\x7bb".toList = .ok count ∧ count.offset = 4 ∧ 0 < count.depth) ∧
    ∃ count, countBraces "é\x7bb\x7dc\x7d".toList = .error count ∧ count.offset = 6 ∧
      count.depth = 0 := by
  obtain ⟨reads, unique, -, counts⟩ :=
    readBraced_ends_at_matching_brace "\x7bé\x7bb\x7dc\x7dd".toList
  obtain ⟨-, -, left, -⟩ := readBraced_ends_at_matching_brace "\x7bé\x7bb\x7dc".toList
  have parts : "\x7bé\x7bb\x7dc\x7dd".toList =
      '{' :: ("é\x7bb\x7dc".toList ++ '}' :: "d".toList) ∧ Balanced "é\x7bb\x7dc".toList :=
    ⟨rfl, by decide⟩
  have nothing : (readBraced "\x7bé\x7bb\x7dc".toList).1 = none := by decide
  have going : countBraces "é\x7bb".toList = .ok ⟨2, 4⟩ := by decide
  have stops : countBraces "é\x7bb\x7dc\x7d".toList = .error ⟨0, 6⟩ := by decide
  refine ⟨(reads _ _).mpr parts, fun other rest => unique _ _ other rest parts,
    Prod.ext nothing (left nothing), ⟨_, going, rfl, ?_⟩, _, stops, rfl, ?_⟩
  · exact ((counts _ _ ⟨"\x7dc\x7dd".toList, rfl⟩).1 going).2
  · exact (counts _ _ ⟨"d".toList, rfl⟩).2 stops

end DocComments.TagValue
