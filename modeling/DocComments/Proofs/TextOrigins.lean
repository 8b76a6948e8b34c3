/-
This file says where in the source the characters of a block text come from.

A block covers lines, the last of them without its line end, and takes one excerpt of each. The
text of the block is made of these excerpts. So there is a place in the source for every character
that was kept, and for every line feed between two excerpts; only a line feed after the excerpt of
the closing line comes from nowhere. The character at that place is the character of the text.
-/

import DocComments.Proofs.BlockLines
import Mathlib.Data.List.Forall2

namespace DocComments

/-! ### Excerpts and the lines they are of -/

namespace Excerpt

/-- What a line has after an excerpt. -/
def tailOf (excerpt : Excerpt) (line : List Char) : List Char :=
  line.drop (excerpt.skipped + excerpt.kept.length)

/-- A line is what was skipped, what was kept, and the rest. -/
theorem IsOf.append_eq {excerpt : Excerpt} {line : List Char} (isOf : excerpt.IsOf line) :
    line.take excerpt.skipped ++ (excerpt.kept ++ excerpt.tailOf line) = line := by
  obtain ⟨rest, after⟩ := isOf
  have tail : excerpt.tailOf line = rest := by
    rw [tailOf, ← List.drop_drop, ← after, List.drop_left]
  rw [tail, after, List.take_append_drop]

theorem IsOf.length_take {excerpt : Excerpt} {line : List Char} (isOf : excerpt.IsOf line)
    (kept : 0 < excerpt.kept.length) : (line.take excerpt.skipped).length = excerpt.skipped := by
  have fits := isOf.length_le
  rw [List.length_drop] at fits
  rw [List.length_take]
  omega

/-- The place, in lines that are put together, of a character of the text that excerpts of them
make. A character that was kept comes from where it stands, and a line feed from the end of its
line. The line feed after the last excerpt comes from nowhere. -/
def origin? : List Excerpt → List (List Char) → Nat → Option Nat
  | excerpt :: excerpts, line :: lines, position =>
    if position < excerpt.kept.length then
      some (excerpt.skipped + position)
    else if excerpts.isEmpty then
      none
    else if position = excerpt.kept.length then
      some (line.length - 1)
    else
      (origin? excerpts lines (position - (excerpt.kept.length + 1))).map (line.length + ·)
  | _, _, _ => none

theorem origin?_of_lt {excerpt : Excerpt} {excerpts : List Excerpt} {line : List Char}
    {lines : List (List Char)} {position : Nat} (inside : position < excerpt.kept.length) :
    origin? (excerpt :: excerpts) (line :: lines) position =
      some (excerpt.skipped + position) := by
  rw [origin?, if_pos inside]

/-- A place after the first line has its origin in the lines after it. -/
theorem origin?_add {excerpts : List Excerpt} {lines : List (List Char)} {position place : Nat}
    (found : origin? excerpts lines position = some place) (excerpt : Excerpt)
    (line : List Char) :
    origin? (excerpt :: excerpts) (line :: lines) (position + (excerpt.kept.length + 1)) =
      some (place + line.length) := by
  have more : ¬ excerpts.isEmpty = true := by
    intro empty
    rw [List.isEmpty_iff.mp empty] at found
    cases found
  rw [origin?, if_neg (by omega), if_neg more, if_neg (by omega), Nat.add_sub_cancel, found,
    Option.map_some, Nat.add_comm]

/-- The text that excerpts make has the same character there as the lines have at its origin. -/
theorem getElem?_of_origin? {excerpts : List Excerpt} {lines : List (List Char)}
    (isOf : List.Forall₂ IsOf excerpts lines) (fed : ∀ line ∈ lines.dropLast, FedLine line)
    {position place : Nat} (found : origin? excerpts lines position = some place) :
    position + 1 < (Scanner.keptLines excerpts).length ∧
      ∃ c, (Scanner.keptLines excerpts)[position]? = some c ∧ lines.flatten[place]? = some c := by
  induction isOf generalizing position place with
  | nil => cases found
  | @cons excerpt line excerpts lines head tail inductionHypothesis =>
    rw [Scanner.keptLines_cons, List.length_append, List.length_cons, List.flatten_cons]
    by_cases kept : position < excerpt.kept.length
    · rw [origin?_of_lt kept] at found
      cases found
      have skipped := head.length_take (Nat.zero_lt_of_lt kept)
      refine ⟨by omega, excerpt.kept[position], ?_, ?_⟩
      · rw [List.getElem?_append_left kept, List.getElem?_eq_getElem kept]
      · conv_lhs => rw [← head.append_eq]
        rw [List.append_assoc, List.append_assoc,
          List.getElem?_append_right (by rw [skipped]; exact Nat.le_add_right _ _), skipped,
          Nat.add_sub_cancel_left, List.getElem?_append_left kept, List.getElem?_eq_getElem kept]
    · rw [origin?, if_neg kept] at found
      split at found
      · cases found
      · rename_i more
        obtain ⟨next, others, rfl⟩ := List.exists_cons_of_ne_nil (mt List.isEmpty_iff.mpr more)
        cases tail with
        | @cons _ nextLine _ lines nextIsOf tail =>
        obtain ⟨fedLine, fedRest⟩ := List.forall_mem_cons.mp fed
        split at found
        · rename_i atEnd
          cases found
          obtain ⟨body, rfl, -⟩ := fedLine
          have later := List.length_pos_of_ne_nil (Scanner.keptLines_cons next others ▸
            List.append_ne_nil_of_right_ne_nil next.kept (List.cons_ne_nil _ _))
          refine ⟨by omega, '\n', ?_, ?_⟩
          · rw [atEnd, List.getElem?_append_right (Nat.le_refl _), Nat.sub_self]
            rfl
          · rw [List.length_append, List.length_singleton, Nat.add_sub_cancel, List.append_assoc,
              List.getElem?_append_right (Nat.le_refl _), Nat.sub_self]
            rfl
        · obtain ⟨inner, foundInner, rfl⟩ := Option.map_eq_some_iff.mp found
          obtain ⟨inside, c, inText, inLines⟩ := inductionHypothesis fedRest foundInner
          refine ⟨by omega, c, ?_, ?_⟩
          · have next : position - excerpt.kept.length =
                position - (excerpt.kept.length + 1) + 1 := by
              omega
            rw [List.getElem?_append_right (by omega), next, List.getElem?_cons_succ, inText]
          · rw [List.getElem?_append_right (Nat.le_add_right _ _), Nat.add_sub_cancel_left, inLines]

end Excerpt

/-! ### The excerpts of a block -/

namespace Scanner

variable {scanner : Scanner} {opened later : List (List Char)} {closing : List Char}
  {whole : List Excerpt} {last : Excerpt}

theorem isOf_closing {column : Nat}
    (taken : scanner.laterExcerpts column (closing :: later) = [last]) :
    last.IsOf (lineContent closing) := by
  rw [laterExcerpts] at taken
  split at taken
  · cases taken
    exact (scanner.excerpt_isOf column _).of_isPrefix (List.take_prefix _ _)
  · obtain ⟨rfl, -⟩ := List.cons.inj taken
    exact scanner.excerpt_isOf column _

/-- A block that goes on to its closing line takes an excerpt of every line after its first. -/
theorem isOf_laterExcerpts {column : Nat}
    (taken : scanner.laterExcerpts column (opened ++ closing :: later) = whole ++ [last])
    (count : whole.length = opened.length) :
    List.Forall₂ Excerpt.IsOf (whole ++ [last]) (opened ++ [lineContent closing]) := by
  induction opened generalizing whole with
  | nil =>
    cases List.length_eq_zero_iff.mp count
    exact .cons (isOf_closing taken) .nil
  | cons line opened inductionHypothesis =>
    obtain ⟨excerpt, whole, rfl⟩ := List.exists_cons_of_length_eq_add_one count
    rw [List.cons_append, laterExcerpts] at taken
    split at taken
    · have single := congrArg List.length taken
      simp at single
    · obtain ⟨rfl, rest⟩ := List.cons.inj taken
      refine .cons ?_ (inductionHypothesis rest (Nat.succ.inj count))
      exact (scanner.excerpt_isOf column _).of_isPrefix (lineContent_isPrefix line)

theorem isOf_excerpts
    (taken : scanner.excerpts (opened ++ closing :: later) = whole ++ [last])
    (count : whole.length = opened.length) :
    List.Forall₂ Excerpt.IsOf (whole ++ [last]) (opened ++ [lineContent closing]) := by
  cases opened with
  | nil =>
    cases List.length_eq_zero_iff.mp count
    refine .cons ?_ .nil
    simp only [List.nil_append, excerpts] at taken
    split at taken
    · cases taken
    · split at taken
      · cases taken
        exact ((scanner.excerpt_isOf 0 _).of_isPrefix (List.take_prefix _ _)).unindented.after
      · obtain ⟨rfl, -⟩ := List.cons.inj taken
        exact (scanner.excerpt_isOf 0 _).after
  | cons line opened =>
    obtain ⟨excerpt, whole, rfl⟩ := List.exists_cons_of_length_eq_add_one count
    simp only [List.cons_append, excerpts] at taken
    split at taken
    · cases taken
    · split at taken
      · have single := congrArg List.length taken
        simp at single
      · obtain ⟨rfl, rest⟩ := List.cons.inj taken
        refine .cons ?_ (isOf_laterExcerpts rest (Nat.succ.inj count))
        exact (scanner.excerpt_isOf 0 _).after.of_isPrefix (lineContent_isPrefix line)

end Scanner

/-! ### The origins of a block text -/

/-- A text has a character at a byte offset. -/
def Text.HasAt (text : List Char) (offset : Nat) (c : Char) : Prop :=
  ∃ before after, text = before ++ c :: after ∧ Text.byteLength before = offset

namespace Block

/-- The lines of a block as far as it covers them: all of them are whole but the closing line, which
lacks its line end. -/
def coveredLines (block : Block) (source : List Char) : List (List Char) :=
  let lines := (splitLines source).drop (block.startLine - 1)
  let count := block.endLine - block.startLine
  lines.take count ++ (lines[count]?.map lineContent).toList

/-- The part of the source that a block covers. -/
def covered (block : Block) (source : List Char) : List Char :=
  (block.coveredLines source).flatten

/-- What is taken of the lines of a block. -/
def excerpts (block : Block) (scanner : Scanner) (source : List Char) : List Excerpt :=
  scanner.excerpts ((splitLines source).drop (block.startLine - 1))

/-- The byte of the source that a character of the text of a block comes from. -/
def origin? (block : Block) (scanner : Scanner) (source : List Char) (position : Nat) :
    Option Nat :=
  (Excerpt.origin? (block.excerpts scanner source) (block.coveredLines source) position).map
    fun place => block.span.start + Text.byteLength ((block.covered source).take place)

/-- What is known of a block that was found in a source. -/
structure TakenFrom (block : Block) (scanner : Scanner) (source : List Char) : Prop where
  isOf : List.Forall₂ Excerpt.IsOf (block.excerpts scanner source) (block.coveredLines source)
  fed : ∀ line ∈ (block.coveredLines source).dropLast, FedLine line
  text : ∃ whole last, block.excerpts scanner source = whole ++ [last] ∧
    block.text = Scanner.keptLines whole ++ Scanner.closingText last.kept
  covers : ∃ before after, source = before ++ (block.covered source ++ after) ∧
    block.span.start = Text.byteLength before ∧
    block.span.stop = Text.byteLength before + Text.byteLength (block.covered source)

theorem StandsOn.coveredLines_eq {block : Block} {before opened later : List (List Char)}
    {closing source : List Char} (stands : block.StandsOn before opened closing)
    (lines : splitLines source = before ++ opened ++ closing :: later) :
    block.coveredLines source = opened ++ [lineContent closing] := by
  have first : block.startLine - 1 = before.length := by
    rw [stands.startLine, Nat.add_sub_cancel]
  have count : block.endLine - block.startLine = opened.length := by
    rw [stands.startLine, stands.endLine]
    omega
  simp only [coveredLines]
  rw [lines, first, count, List.append_assoc, List.drop_left, List.take_left,
    List.getElem?_append_right (Nat.le_refl _), Nat.sub_self]
  rfl

theorem takenFrom_of_mem_scan {scanner : Scanner} {source : List Char} {block : Block}
    (member : block ∈ scanner.scan source) : block.TakenFrom scanner source := by
  obtain ⟨before, opened, closing, later, lines, stands, whole, last, taken, count, text⟩ :=
    scanner.standsOn_of_mem_scan member
  have coveredLines := stands.coveredLines_eq lines
  have excerpts : block.excerpts scanner source = whole ++ [last] := by
    rw [Block.excerpts, lines, stands.startLine, Nat.add_sub_cancel, List.append_assoc,
      List.drop_left, taken]
  obtain ⟨after, around, -⟩ := stands.slice? lines
  have covered : block.covered source = opened.flatten ++ lineContent closing := by
    rw [Block.covered, coveredLines, List.flatten_append, List.flatten_singleton]
  refine ⟨?_, ?_, ⟨whole, last, excerpts, text⟩, before.flatten, after, ?_, stands.start, ?_⟩
  · rw [excerpts, coveredLines]
    exact Scanner.isOf_excerpts taken count
  · rw [coveredLines, List.dropLast_concat]
    intro line member
    exact (fed_of_splitLines lines).1 line (List.mem_append_right _ member)
  · rw [covered]
    exact around
  · rw [covered, stands.stop, Text.byteLength_append]

/-- Every character of the text of a block that comes from somewhere stands there. -/
theorem TakenFrom.of_origin? {block : Block} {scanner : Scanner} {source : List Char}
    (taken : block.TakenFrom scanner source) {position place : Nat}
    (found : block.origin? scanner source position = some place) :
    ∃ c, block.text[position]? = some c ∧ Text.HasAt source place c := by
  obtain ⟨index, inCovered, rfl⟩ := Option.map_eq_some_iff.mp found
  obtain ⟨inside, c, inText, inLines⟩ := Excerpt.getElem?_of_origin? taken.isOf taken.fed inCovered
  obtain ⟨whole, last, excerpts, text⟩ := taken.text
  obtain ⟨before, after, around, start, -⟩ := taken.covers
  have parts : block.covered source =
      (block.covered source).take index ++ c :: (block.covered source).drop (index + 1) := by
    obtain ⟨within, rfl⟩ := List.getElem?_eq_some_iff.mp inLines
    conv_lhs => rw [← List.take_append_drop index (block.covered source)]
    exact congrArg _ (List.drop_eq_getElem_cons within)
  refine ⟨c, ?_, before ++ (block.covered source).take index,
    (block.covered source).drop (index + 1) ++ after, ?_, ?_⟩
  · rw [excerpts, Scanner.keptLines_concat] at inside inText
    rw [text, Scanner.closingText]
    split
    · rename_i empty
      rw [List.isEmpty_iff.mp empty, List.nil_append] at inside inText
      rw [List.length_append, List.length_singleton] at inside
      rw [List.append_nil, ← inText, List.getElem?_append_left (by omega)]
    · exact inText
  · conv_lhs => rw [around, parts]
    simp only [List.append_assoc, List.cons_append]
  · rw [Text.byteLength_append, start]

end Block

end DocComments
