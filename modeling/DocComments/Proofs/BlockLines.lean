/-
This file says of every block that a scan finds where it stands and what it is made of.

A block stands on lines in a row: those that it has open, and the line that closes it. Its line
numbers count the lines before it, and its span runs from the start of its first line to the end
of the content of its last. A line that is not the last of the source ends with its only line feed.
Of each of its lines a block takes an excerpt, which is what stripping
leaves of the part between the delimiters: a number of characters is passed over, and of those
that follow some are kept. The text of the block is what was kept, line by line. So every
character of a text can be traced to the line and the place it was taken from.

All this is carried through the scan by an invariant of its state. Outside of blocks there is
nothing to say; inside of one, the lines since the block was opened and what was taken from them
are known, whatever lines come next.
-/

import DocComments.Proofs.Scanning
import Mathlib.Data.List.Infix

namespace DocComments

/-! ### Excerpts of lines -/

/-- A part of a line: how many characters of the line stand before it, and its own. -/
structure Excerpt where
  skipped : Nat
  kept : List Char
deriving DecidableEq, Repr

namespace Excerpt

/-- An excerpt is of a line when its characters stand there where it says. -/
def IsOf (excerpt : Excerpt) (line : List Char) : Prop :=
  excerpt.kept <+: line.drop excerpt.skipped

/-- An excerpt of the rest of a line after so many characters, as an excerpt of the line. -/
def after (count : Nat) (excerpt : Excerpt) : Excerpt :=
  ⟨count + excerpt.skipped, excerpt.kept⟩

/-- The excerpt without the blanks at its start. -/
def unindented (excerpt : Excerpt) : Excerpt :=
  ⟨excerpt.skipped + (excerpt.kept.takeWhile Text.isBlank).length,
    excerpt.kept.dropWhile Text.isBlank⟩

theorem IsOf.after {excerpt : Excerpt} {line : List Char} {count : Nat}
    (isOf : excerpt.IsOf (line.drop count)) : (excerpt.after count).IsOf line := by
  unfold IsOf Excerpt.after at *
  rwa [List.drop_drop] at isOf

theorem IsOf.of_isPrefix {excerpt : Excerpt} {part line : List Char}
    (isOf : excerpt.IsOf part) (front : part <+: line) : excerpt.IsOf line :=
  isOf.trans (front.drop _)

theorem dropWhile_eq_drop (cut : Char → Bool) (text : List Char) :
    text.dropWhile cut = text.drop (text.takeWhile cut).length := by
  have whole : (text.takeWhile cut ++ text.dropWhile cut).drop (text.takeWhile cut).length =
      text.dropWhile cut := List.drop_left
  rw [List.takeWhile_append_dropWhile] at whole
  exact whole.symm

theorem IsOf.unindented {excerpt : Excerpt} {line : List Char} (isOf : excerpt.IsOf line) :
    excerpt.unindented.IsOf line := by
  unfold IsOf Excerpt.unindented at *
  rw [dropWhile_eq_drop, ← List.drop_drop]
  exact isOf.drop _

end Excerpt

namespace Scanner

/-- How many characters stripping takes from the start of a line. -/
def skipped (scanner : Scanner) (column : Nat) (line : List Char) : Nat :=
  match scanner.linePrefix with
  | some chars =>
    let inner := Text.trimWith Text.isBlank line
    (line.takeWhile Text.isBlank).length + (inner.takeWhile chars.contains).length +
      ((Text.trimWith chars.contains inner).takeWhile Text.isBlank).length
  | none => column

/-- What stripping leaves of a line. -/
def excerpt (scanner : Scanner) (column : Nat) (line : List Char) : Excerpt :=
  ⟨scanner.skipped column line, scanner.strip column line⟩

theorem dropTail_isPrefix (cut : Char → Bool) (text : List Char) :
    Text.dropTail cut text <+: text := by
  unfold Text.dropTail
  have tail := List.dropWhile_suffix cut (l := text.reverse)
  rwa [← List.reverse_prefix, List.reverse_reverse] at tail

theorem trimWith_isPrefix (cut : Char → Bool) (text : List Char) :
    Text.trimWith cut text <+: text.drop (text.takeWhile cut).length := by
  rw [← Excerpt.dropWhile_eq_drop]
  exact dropTail_isPrefix cut _

theorem excerpt_isOf (scanner : Scanner) (column : Nat) (line : List Char) :
    (scanner.excerpt column line).IsOf line := by
  unfold Excerpt.IsOf excerpt skipped strip
  cases scanner.linePrefix with
  | none => exact dropTail_isPrefix _ _
  | some chars =>
    -- Trimming three times skips the sum of what each round skips.
    simp only
    rw [← List.drop_drop, ← List.drop_drop]
    refine (trimWith_isPrefix _ _).trans (List.IsPrefix.drop ?_ _)
    refine (trimWith_isPrefix _ _).trans (List.IsPrefix.drop ?_ _)
    exact trimWith_isPrefix _ _

/-- The excerpts that a block with this column takes of lines after its first, up to the line
that closes it. -/
def laterExcerpts (scanner : Scanner) (column : Nat) : List (List Char) → List Excerpt
  | [] => []
  | line :: lines =>
    match scanner.closes (lineContent line) with
    | some closing => [scanner.excerpt column ((lineContent line).take closing.start)]
    | none => scanner.excerpt column (lineContent line) :: laterExcerpts scanner column lines

/-- The excerpts of the block that the first of these lines opens, one of each line. -/
def excerpts (scanner : Scanner) : List (List Char) → List Excerpt
  | [] => []
  | line :: lines =>
    match scanner.opens (lineContent line) with
    | none => []
    | some opening =>
      let rest := (lineContent line).drop opening.stop
      match scanner.closes rest with
      | some closing =>
        [(scanner.excerpt 0 (rest.take closing.start)).unindented.after opening.stop]
      | none =>
        (scanner.excerpt 0 rest).after opening.stop :: scanner.laterExcerpts opening.stop lines

/-- The text that excerpts of whole lines make. -/
def keptLines (excerpts : List Excerpt) : List Char :=
  excerpts.flatMap fun excerpt => excerpt.kept ++ ['\n']

theorem keptLines_cons (excerpt : Excerpt) (excerpts : List Excerpt) :
    keptLines (excerpt :: excerpts) = excerpt.kept ++ '\n' :: keptLines excerpts := by
  simp only [keptLines, List.flatMap_cons, List.append_assoc, List.singleton_append]

theorem keptLines_concat (excerpts : List Excerpt) (last : Excerpt) :
    keptLines (excerpts ++ [last]) = keptLines excerpts ++ (last.kept ++ ['\n']) := by
  simp only [keptLines, List.flatMap_append, List.flatMap_singleton]

end Scanner

/-! ### Lines with their line feeds -/

/-- A line with its line feed at the end and no other one. -/
def FedLine (line : List Char) : Prop :=
  ∃ body, line = body ++ ['\n'] ∧ '\n' ∉ body

/-- Lines before another one have their line feed, and no line has another one inside. -/
theorem fed_of_splitLines {text : List Char} {before later : List (List Char)}
    {line : List Char} (lines : splitLines text = before ++ line :: later) :
    (∀ other ∈ before, FedLine other) ∧ (FedLine line ∨ '\n' ∉ line) := by
  fun_induction splitLines text generalizing before line later with
  | case1 => cases (List.append_eq_nil_iff.mp lines.symm).2
  | case2 c rest feed inductionHypothesis =>
    have single : FedLine [c] := ⟨[], by rw [beq_iff_eq.mp feed]; rfl, List.not_mem_nil⟩
    cases before with
    | nil =>
      cases lines
      exact ⟨List.forall_mem_nil _, .inl single⟩
    | cons first before =>
      obtain ⟨rfl, rest⟩ := List.cons.inj lines
      obtain ⟨fed, last⟩ := inductionHypothesis rest
      exact ⟨List.forall_mem_cons.mpr ⟨single, fed⟩, last⟩
  | case3 c rest other noLines inductionHypothesis =>
    have noFeed : '\n' ∉ [c] := fun inside =>
      other (beq_iff_eq.mpr (List.mem_singleton.mp inside).symm)
    cases before with
    | nil =>
      cases lines
      exact ⟨List.forall_mem_nil _, .inr noFeed⟩
    | cons first before =>
      have rest := (List.cons.inj lines).2
      cases (List.append_eq_nil_iff.mp rest.symm).2
  | case4 c rest other first others restLines inductionHypothesis =>
    have differs : '\n' ≠ c := fun same => other (beq_iff_eq.mpr same.symm)
    have extend : FedLine first → FedLine (c :: first) := by
      rintro ⟨body, rfl, noFeed⟩
      exact ⟨c :: body, rfl, by simp [differs, noFeed]⟩
    cases before with
    | nil =>
      cases lines
      obtain ⟨-, last⟩ := inductionHypothesis (restLines.trans (List.nil_append _).symm)
      exact ⟨List.forall_mem_nil _, last.imp extend fun noFeed => by simp [differs, noFeed]⟩
    | cons head before =>
      obtain ⟨rfl, tail⟩ := List.cons.inj lines
      have cut : splitLines rest = (first :: before) ++ line :: later := by
        rw [restLines, tail]
        rfl
      obtain ⟨fed, last⟩ := inductionHypothesis cut
      obtain ⟨fedFirst, fedBefore⟩ := List.forall_mem_cons.mp fed
      exact ⟨List.forall_mem_cons.mpr ⟨extend fedFirst, fedBefore⟩, last⟩

/-! ### Where blocks stand -/

/-- A block stands on lines: it has the lines `opened` open, the line `closing` closes it, and
the lines `before` come before it. -/
structure Block.StandsOn (block : Block) (before opened : List (List Char))
    (closing : List Char) : Prop where
  startLine : block.startLine = before.length + 1
  endLine : block.endLine = before.length + opened.length + 1
  start : block.span.start = Text.byteLength before.flatten
  stop : block.span.stop = Text.byteLength before.flatten +
    (Text.byteLength opened.flatten + Text.byteLength (lineContent closing))

/-- A block is made of lines: its text is what it keeps of the lines `opened` and of the line
`closing`, and no excerpt is taken of the lines `later`. -/
def Scanner.MakesText (scanner : Scanner) (opened : List (List Char)) (closing : List Char)
    (later : List (List Char)) (text : List Char) : Prop :=
  ∃ whole last, scanner.excerpts (opened ++ closing :: later) = whole ++ [last] ∧
    whole.length = opened.length ∧ text = keptLines whole ++ closingText last.kept

/-- What is known of a state after the lines `before` a block and the lines that it has open:
the line and the offset of its start, and what was taken so far, whatever lines come next. -/
def ScanState.Reached (scanner : Scanner) (done : List (List Char)) : ScanState → Prop
  | .outside => True
  | .inside startLine startOffset column text =>
    ∃ before opened whole, done = before ++ opened ∧
      startLine = before.length + 1 ∧ startOffset = Text.byteLength before.flatten ∧
      whole.length = opened.length ∧ text = Scanner.keptLines whole ∧
      ∀ later, scanner.excerpts (opened ++ later) =
        whole ++ scanner.laterExcerpts column later

namespace Scanner

/-- A line closes only blocks that stand on the lines up to it, and it leaves a state that is
known again. -/
theorem step_reached (scanner : Scanner) {done : List (List Char)} {state : ScanState}
    (reached : state.Reached scanner done) (line : List Char) :
    (∀ block ∈ (scanner.step (done.length + 1) (Text.byteLength done.flatten) state line).1,
      ∃ before opened, done = before ++ opened ∧ block.StandsOn before opened line ∧
        ∀ later, scanner.MakesText opened line later block.text) ∧
    (scanner.step (done.length + 1) (Text.byteLength done.flatten) state line).2.Reached scanner
      (done ++ [line]) := by
  have noBlock {holds : Block → Prop} : ∀ block ∈ (none : Option Block), holds block :=
    fun block closed => absurd closed (Option.not_mem_none block)
  cases state with
  | outside =>
    simp only [step]
    cases opens : scanner.opens (lineContent line) with
    | none => exact ⟨noBlock, trivial⟩
    | some opening =>
      simp only
      cases closes : scanner.closes ((lineContent line).drop opening.stop) with
      | none =>
        refine ⟨noBlock, done, [line],
          [(scanner.excerpt 0 ((lineContent line).drop opening.stop)).after opening.stop],
          rfl, rfl, rfl, rfl, ?_, fun later => ?_⟩
        · simp only [keptLines, List.flatMap_singleton, Excerpt.after, excerpt]
        · simp only [excerpts, opens, closes, List.singleton_append]
      | some closing =>
        refine ⟨fun block closed => ?_, trivial⟩
        cases closed
        refine ⟨done, [], (List.append_nil _).symm, ⟨rfl, rfl, rfl, ?_⟩, fun later => ?_⟩
        · simp only [Span.between, List.flatten_nil, Text.byteLength_nil, Nat.zero_add]
          exact Nat.max_eq_right (Nat.le_add_right _ _)
        · refine ⟨[], (scanner.excerpt 0 (((lineContent line).drop opening.stop).take
            closing.start)).unindented.after opening.stop, ?_, rfl, rfl⟩
          simp only [excerpts, opens, closes, List.nil_append]
  | inside startLine startOffset column text =>
    obtain ⟨before, opened, whole, rfl, rfl, rfl, count, rfl, taken⟩ := reached
    simp only [step]
    cases closes : scanner.closes (lineContent line) with
    | none =>
      refine ⟨noBlock, before, opened ++ [line],
        whole ++ [scanner.excerpt column (lineContent line)], List.append_assoc _ _ _, rfl, rfl,
        ?_, ?_, fun later => ?_⟩
      · simp only [List.length_append, List.length_singleton, count]
      · rw [keptLines_concat]
        rfl
      · rw [List.append_assoc, taken]
        simp only [List.singleton_append, laterExcerpts, closes, List.append_assoc]
    | some closing =>
      refine ⟨fun block closed => ?_, trivial⟩
      cases closed
      refine ⟨before, opened, rfl, ⟨rfl, ?_, rfl, ?_⟩, fun later => ?_⟩
      · simp only [List.length_append]
      · simp only [Span.between, List.flatten_append, Text.byteLength_append, Nat.add_assoc]
        exact Nat.max_eq_right (Nat.le_add_right _ _)
      · refine ⟨whole, scanner.excerpt column ((lineContent line).take closing.start), ?_, count,
          rfl⟩
        rw [taken]
        simp only [laterExcerpts, closes]

/-- Every block of a scan stands on lines in a row and is made of them. -/
theorem standsOn_of_mem_scanLines (scanner : Scanner) {done : List (List Char)}
    {state : ScanState} (reached : state.Reached scanner done) {lines : List (List Char)}
    {block : Block}
    (member : block ∈
      scanner.scanLines (done.length + 1) (Text.byteLength done.flatten) state lines) :
    ∃ before opened closing later, done ++ lines = before ++ opened ++ closing :: later ∧
      block.StandsOn before opened closing ∧ scanner.MakesText opened closing later block.text := by
  induction lines generalizing done state with
  | nil => cases member
  | cons line lines inductionHypothesis =>
    obtain ⟨closed, next⟩ := scanner.step_reached reached line
    rw [scanLines_cons, List.mem_append, Option.mem_toList] at member
    rcases member with here | inRest
    · obtain ⟨before, opened, rfl, stands, made⟩ := closed block here
      exact ⟨before, opened, line, lines, rfl, stands, made lines⟩
    · have bytes : Text.byteLength (done ++ [line]).flatten =
          Text.byteLength done.flatten + Text.byteLength line := by
        rw [List.flatten_append, List.flatten_singleton, Text.byteLength_append]
      rw [← bytes, show done.length + 1 + 1 = (done ++ [line]).length + 1 by simp] at inRest
      obtain ⟨before, opened, closing, later, split, found⟩ := inductionHypothesis next inRest
      refine ⟨before, opened, closing, later, ?_, found⟩
      rw [← split, List.append_assoc, List.singleton_append]

theorem standsOn_of_mem_scan (scanner : Scanner) {source : List Char} {block : Block}
    (member : block ∈ scanner.scan source) :
    ∃ before opened closing later, splitLines source = before ++ opened ++ closing :: later ∧
      block.StandsOn before opened closing ∧ scanner.MakesText opened closing later block.text := by
  have start : ScanState.outside.Reached scanner [] := trivial
  exact scanner.standsOn_of_mem_scanLines start member

end Scanner

/-! ### What the span of a block covers -/

/-- A span covers a part of a text if it starts after what comes before the part and is as long
as the part. -/
theorem Span.slice?_of_append {span : Span} {before part : List Char} (after : List Char)
    (start : span.start = Text.byteLength before)
    (stop : span.stop = Text.byteLength before + Text.byteLength part) :
    span.slice? (before ++ (part ++ after)) = some part := by
  have length : span.length = Text.byteLength part := by
    rw [Span.length, start, stop, Nat.add_sub_cancel_left]
  simp only [Span.slice?, Option.bind_eq_bind]
  rw [start, Text.splitAtByte?_byteLength, Option.bind_some, length,
    Text.splitAtByte?_byteLength]
  rfl

theorem dropFinal_isPrefix (final : Char) (text : List Char) : dropFinal final text <+: text := by
  unfold dropFinal
  split
  · exact List.dropLast_prefix text
  · exact List.prefix_rfl

theorem lineContent_isPrefix (line : List Char) : lineContent line <+: line :=
  (dropFinal_isPrefix _ _).trans (dropFinal_isPrefix _ _)

/-- The source around a block, and the part of it that the block covers. -/
theorem Block.StandsOn.slice? {block : Block} {before opened later : List (List Char)}
    {closing source : List Char} (stands : block.StandsOn before opened closing)
    (lines : splitLines source = before ++ opened ++ closing :: later) :
    ∃ after, source =
        before.flatten ++ ((opened.flatten ++ lineContent closing) ++ after) ∧
      block.span.slice? source = some (opened.flatten ++ lineContent closing) := by
  obtain ⟨ending, closingEq⟩ := lineContent_isPrefix closing
  have whole : source = before.flatten ++
      ((opened.flatten ++ lineContent closing) ++ (ending ++ later.flatten)) := by
    rw [← flatten_splitLines source, lines]
    conv_lhs => rw [← closingEq]
    simp only [List.flatten_append, List.flatten_cons, List.append_assoc]
  have stop := stands.stop
  rw [← Text.byteLength_append] at stop
  refine ⟨ending ++ later.flatten, whole, ?_⟩
  conv_lhs => rw [whole]
  exact Span.slice?_of_append _ stands.start stop

theorem Block.StandsOn.startLine_le_endLine {block : Block} {before opened : List (List Char)}
    {closing : List Char} (stands : block.StandsOn before opened closing) :
    block.startLine ≤ block.endLine := by
  rw [stands.startLine, stands.endLine]
  omega

end DocComments
