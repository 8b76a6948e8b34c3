/-
This file takes the scan of a source apart into the steps it makes, one for each line.

A step sees the number and the byte offset of its line only as marks that it puts on blocks: the
same lines further down give the same blocks further down. What went before a line matters to it
only through the state, so the blocks of a source that goes on after whole lines are the blocks
of these lines, and then those of the rest, scanned from the state in which the first left off.
And a block never covers bytes after the line that closes it.
-/

import DocComments.Block.Scanner
import DocComments.Proofs.Bytes

namespace DocComments

/-! ### Lines -/

/-- A text made of whole lines: it is empty or ends with a line feed. -/
def WholeLines (text : List Char) : Prop :=
  text = [] ∨ text.getLast? = some '\n'

theorem flatten_splitLines (text : List Char) : (splitLines text).flatten = text := by
  fun_induction splitLines text with
  | case1 => rfl
  | case2 c rest feed inductionHypothesis =>
    rw [List.flatten_cons, inductionHypothesis, List.singleton_append]
  | case3 c rest other lines inductionHypothesis =>
    rw [lines] at inductionHypothesis
    rw [← inductionHypothesis]
    rfl
  | case4 c rest other line others lines inductionHypothesis =>
    rw [lines] at inductionHypothesis
    rw [← inductionHypothesis]
    rfl

theorem splitLines_append {first : List Char} (whole : WholeLines first) (second : List Char) :
    splitLines (first ++ second) = splitLines first ++ splitLines second := by
  induction first with
  | nil => rfl
  | cons c rest inductionHypothesis =>
    have ending : (c :: rest).getLast? = some '\n' := whole.resolve_left (List.cons_ne_nil _ _)
    have wholeRest : WholeLines rest := by
      cases rest with
      | nil => exact .inl rfl
      | cons next others => exact .inr ending
    rw [List.cons_append, splitLines, splitLines, inductionHypothesis wholeRest]
    by_cases feed : (c == '\n') = true
    · rw [if_pos feed, if_pos feed, List.cons_append]
    · rw [if_neg feed, if_neg feed]
      cases lines : splitLines rest with
      | cons line others => rfl
      | nil =>
        -- The line of `c` would lack its line feed.
        have noRest : rest = [] := by rw [← flatten_splitLines rest, lines, List.flatten_nil]
        rw [noRest, List.getLast?_singleton, Option.some.injEq] at ending
        exact absurd (beq_iff_eq.mpr ending) feed

theorem byteLength_dropFinal_le (final : Char) (text : List Char) :
    Text.byteLength (dropFinal final text) ≤ Text.byteLength text := by
  rw [dropFinal]
  split
  · obtain ⟨last, ending⟩ := List.dropLast_prefix text
    conv_rhs => rw [← ending]
    rw [Text.byteLength_append]
    exact Nat.le_add_right _ _
  · exact Nat.le_refl _

theorem byteLength_lineContent_le (line : List Char) :
    Text.byteLength (lineContent line) ≤ Text.byteLength line :=
  Nat.le_trans (byteLength_dropFinal_le _ _) (byteLength_dropFinal_le _ _)

/-! ### Steps -/

namespace Scanner

/-- What one line does: the block that it closes, if it closes one, and the state after it. -/
def step (scanner : Scanner) (number offset : Nat) (state : ScanState) (line : List Char) :
    Option Block × ScanState :=
  let content := lineContent line
  let stop := offset + Text.byteLength content
  match state with
  | .outside =>
    match scanner.opens content with
    | none => (none, .outside)
    | some opening =>
      let rest := content.drop opening.stop
      match scanner.closes rest with
      | some closing =>
        let text := (scanner.strip 0 (rest.take closing.start)).dropWhile Text.isBlank
        (some ⟨number, number, Span.between offset stop, closingText text⟩, .outside)
      | none =>
        (none, .inside number offset opening.stop (scanner.strip 0 rest ++ ['\n']))
  | .inside startLine startOffset column text =>
    match scanner.closes content with
    | some closing =>
      let last := scanner.strip column (content.take closing.start)
      (some ⟨startLine, number, Span.between startOffset stop, text ++ closingText last⟩, .outside)
    | none =>
      (none, .inside startLine startOffset column
        (text ++ (scanner.strip column content ++ ['\n'])))

/-- A scan makes a step with the first line and goes on from there. -/
theorem scanLines_cons (scanner : Scanner) (number offset : Nat) (state : ScanState)
    (line : List Char) (lines : List (List Char)) :
    scanner.scanLines number offset state (line :: lines) =
      (scanner.step number offset state line).1.toList ++
        scanner.scanLines (number + 1) (offset + Text.byteLength line)
          (scanner.step number offset state line).2 lines := by
  cases state with
  | outside =>
    simp only [scanLines, step]
    cases scanner.opens (lineContent line) with
    | none => rfl
    | some opening =>
      simp only
      cases scanner.closes ((lineContent line).drop opening.stop) with
      | none => rfl
      | some closing => rfl
  | inside startLine startOffset column text =>
    simp only [scanLines, step]
    cases scanner.closes (lineContent line) with
    | none => rfl
    | some closing => rfl

/-- The state after lines, where the first of them has this number and starts at this byte
offset. -/
def stateAfter (scanner : Scanner) : Nat → Nat → ScanState → List (List Char) → ScanState
  | _, _, state, [] => state
  | number, offset, state, line :: lines =>
    stateAfter scanner (number + 1) (offset + Text.byteLength line)
      (scanner.step number offset state line).2 lines

/-- The state at the end of a source. -/
def endState (scanner : Scanner) (source : List Char) : ScanState :=
  scanner.stateAfter 1 0 .outside (splitLines source)

/-- Whether a block is open at the end of a source. -/
def leavesOpen (scanner : Scanner) (source : List Char) : Bool :=
  match scanner.endState source with
  | .outside => false
  | .inside _ _ _ _ => true

theorem endState_of_leavesOpen_eq_false {scanner : Scanner} {source : List Char}
    (closed : scanner.leavesOpen source = false) : scanner.endState source = .outside := by
  rw [leavesOpen] at closed
  cases state : scanner.endState source with
  | outside => rfl
  | inside startLine startOffset column text =>
    rw [state] at closed
    cases closed

/-- The blocks of lines in a row are those of the first lines and then those of the others. -/
theorem scanLines_append (scanner : Scanner) (number offset : Nat) (state : ScanState)
    (first second : List (List Char)) :
    scanner.scanLines number offset state (first ++ second) =
      scanner.scanLines number offset state first ++
        scanner.scanLines (number + first.length) (offset + Text.byteLength first.flatten)
          (scanner.stateAfter number offset state first) second := by
  induction first generalizing number offset state with
  | nil => rfl
  | cons line lines inductionHypothesis =>
    rw [List.cons_append, scanLines_cons, scanLines_cons, inductionHypothesis, stateAfter,
      List.append_assoc, List.length_cons, List.flatten_cons, Text.byteLength_append,
      Nat.add_assoc number, Nat.add_comm 1, Nat.add_assoc offset]

end Scanner

/-! ### Further down -/

/-- The span further down. -/
def Span.shift (bytes : Nat) (span : Span) : Span :=
  ⟨span.start + bytes, span.stop + bytes, Nat.add_le_add_right span.ordered bytes⟩

theorem Span.between_add (start stop bytes : Nat) :
    Span.between (start + bytes) (stop + bytes) = (Span.between start stop).shift bytes := by
  simp only [Span.between, Span.shift, Nat.add_max_add_right]

/-- The block further down. -/
def Block.shift (lines bytes : Nat) (block : Block) : Block :=
  { block with
    startLine := block.startLine + lines
    endLine := block.endLine + lines
    span := block.span.shift bytes }

/-- The state further down: a block that is open started further down. -/
def ScanState.shift (lines bytes : Nat) : ScanState → ScanState
  | .outside => .outside
  | .inside startLine startOffset column text =>
    .inside (startLine + lines) (startOffset + bytes) column text

namespace Scanner

theorem step_shift (scanner : Scanner) (lines bytes number offset : Nat) (state : ScanState)
    (line : List Char) :
    scanner.step (number + lines) (offset + bytes) (state.shift lines bytes) line =
      ((scanner.step number offset state line).1.map (Block.shift lines bytes),
        (scanner.step number offset state line).2.shift lines bytes) := by
  have stop : offset + bytes + Text.byteLength (lineContent line) =
      offset + Text.byteLength (lineContent line) + bytes := Nat.add_right_comm _ _ _
  cases state with
  | outside =>
    simp only [step, ScanState.shift]
    cases scanner.opens (lineContent line) with
    | none => rfl
    | some opening =>
      simp only
      cases scanner.closes ((lineContent line).drop opening.stop) with
      | none => rfl
      | some closing =>
        simp only
        rw [stop, Span.between_add]
        rfl
  | inside startLine startOffset column text =>
    simp only [step, ScanState.shift]
    cases scanner.closes (lineContent line) with
    | none => rfl
    | some closing =>
      simp only
      rw [stop, Span.between_add]
      rfl

/-- The same lines further down give the same blocks further down. -/
theorem scanLines_shift (scanner : Scanner) (shiftedLines bytes number offset : Nat)
    (state : ScanState) (lines : List (List Char)) :
    scanner.scanLines (number + shiftedLines) (offset + bytes) (state.shift shiftedLines bytes)
        lines =
      (scanner.scanLines number offset state lines).map (Block.shift shiftedLines bytes) := by
  induction lines generalizing number offset state with
  | nil => rfl
  | cons line lines inductionHypothesis =>
    rw [scanLines_cons, scanLines_cons, step_shift, List.map_append, Option.toList_map,
      Nat.add_right_comm number, Nat.add_right_comm offset, inductionHypothesis]

end Scanner

/-! ### Where blocks end -/

/-- A state in which no block starts after this byte offset. -/
def ScanState.StartsBy (offset : Nat) : ScanState → Prop
  | .outside => True
  | .inside _ startOffset _ _ => startOffset ≤ offset

namespace Scanner

theorem step_within (scanner : Scanner) {offset : Nat} {state : ScanState}
    (starts : state.StartsBy offset) (number : Nat) (line : List Char) :
    (∀ block ∈ (scanner.step number offset state line).1,
      block.span.stop ≤ offset + Text.byteLength line) ∧
    (scanner.step number offset state line).2.StartsBy (offset + Text.byteLength line) := by
  have stop := Nat.add_le_add_left (byteLength_lineContent_le line) offset
  cases state with
  | outside =>
    simp only [step]
    cases scanner.opens (lineContent line) with
    | none => exact ⟨nofun, trivial⟩
    | some opening =>
      simp only
      cases scanner.closes ((lineContent line).drop opening.stop) with
      | none => exact ⟨nofun, Nat.le_add_right _ _⟩
      | some closing =>
        refine ⟨fun block closed => ?_, trivial⟩
        cases closed
        exact Nat.max_le.mpr ⟨Nat.le_add_right _ _, stop⟩
  | inside startLine startOffset column text =>
    have later : startOffset ≤ offset + Text.byteLength line :=
      Nat.le_trans starts (Nat.le_add_right _ _)
    simp only [step]
    cases scanner.closes (lineContent line) with
    | none => exact ⟨nofun, later⟩
    | some closing =>
      refine ⟨fun block closed => ?_, trivial⟩
      cases closed
      exact Nat.max_le.mpr ⟨later, stop⟩

/-- Blocks end inside the lines that are scanned. -/
theorem stop_le_of_mem_scanLines (scanner : Scanner) {number offset : Nat} {state : ScanState}
    (starts : state.StartsBy offset) {lines : List (List Char)} {block : Block}
    (member : block ∈ scanner.scanLines number offset state lines) :
    block.span.stop ≤ offset + Text.byteLength lines.flatten := by
  induction lines generalizing number offset state with
  | nil => cases member
  | cons line lines inductionHypothesis =>
    obtain ⟨within, later⟩ := scanner.step_within starts number line
    rw [scanLines_cons, List.mem_append, Option.mem_toList] at member
    rw [List.flatten_cons, Text.byteLength_append, ← Nat.add_assoc]
    rcases member with closed | inRest
    · exact Nat.le_trans (within block closed) (Nat.le_add_right _ _)
    · exact inductionHypothesis later inRest

/-! ### Sources -/

theorem stop_le_of_mem_scan (scanner : Scanner) {source : List Char} {block : Block}
    (member : block ∈ scanner.scan source) : block.span.stop ≤ Text.byteLength source := by
  have starts : ScanState.outside.StartsBy 0 := trivial
  have within := scanner.stop_le_of_mem_scanLines starts member
  rwa [flatten_splitLines, Nat.zero_add] at within

/-- A source that goes on after whole lines has the blocks of these lines, and then those of the
rest, scanned from the state in which the lines left off. -/
theorem scan_append (scanner : Scanner) {first : List Char} (whole : WholeLines first)
    (second : List Char) :
    scanner.scan (first ++ second) = scanner.scan first ++
      scanner.scanLines (1 + (splitLines first).length) (0 + Text.byteLength first)
        (scanner.endState first) (splitLines second) := by
  rw [scan, splitLines_append whole, scanLines_append, flatten_splitLines]
  rfl

/-- Where whole lines leave no block open, the rest has its own blocks, further down. -/
theorem scan_append_of_closed (scanner : Scanner) {first : List Char} (whole : WholeLines first)
    (closed : scanner.leavesOpen first = false) (second : List Char) :
    scanner.scan (first ++ second) = scanner.scan first ++
      (scanner.scan second).map
        (Block.shift (splitLines first).length (Text.byteLength first)) := by
  rw [scanner.scan_append whole, endState_of_leavesOpen_eq_false closed]
  exact congrArg _ (scanner.scanLines_shift _ _ _ _ .outside _)

end Scanner

end DocComments
