/-
This file proves which lines the report of a refused source names.

The lines of a block are counted twice: by the scan, which numbers lines as it goes, and by the
report, which counts line feeds in the source up to the span of the block and inside of it. Lines
before another one end with their only line feed, so the first count agrees. Inside the span there
is one line feed for each line that the block has open; but the report first takes away the line
feeds at the end of the span. It finds some there exactly if the closing line has no content and
the block has more than that line. So the range ends at the last line of which the block covers
more than a line feed, and that is the closing line if and only if it has content or is also the
first.
-/

import DocComments.Documentation
import DocComments.Proofs.BlockLines
import DocComments.Proofs.Gathering
import DocComments.Proofs.Refusals
import Mathlib

namespace DocComments

/-! ### Line feeds in lines -/

theorem lineFeed_notMem_lineContent {line : List Char} (fed : FedLine line ∨ '\n' ∉ line) :
    '\n' ∉ lineContent line := by
  intro inside
  have inBody := (dropFinal_isPrefix '\r' _).subset inside
  rcases fed with ⟨body, rfl, noFeed⟩ | noFeed
  · rw [dropFinal, List.getLast?_concat, if_pos (by rfl), List.dropLast_concat] at inBody
    exact noFeed inBody
  · exact noFeed ((dropFinal_isPrefix _ _).subset inBody)

namespace Text

theorem count_eq (target : Char) (text : List Char) : count target text = text.count target := by
  rw [count, List.count_eq_length_filter]

/-- Every line with a line feed adds one. -/
theorem count_flatten_of_fed {lines : List (List Char)} (fed : ∀ line ∈ lines, FedLine line) :
    lines.flatten.count '\n' = lines.length := by
  induction lines with
  | nil => rfl
  | cons line lines inductionHypothesis =>
    obtain ⟨⟨body, rfl, noFeed⟩, fedRest⟩ := List.forall_mem_cons.mp fed
    rw [List.flatten_cons, List.count_append, List.count_append,
      List.count_eq_zero_of_not_mem noFeed, inductionHypothesis fedRest, List.length_cons,
      List.count_singleton_self, Nat.zero_add, Nat.add_comm]

theorem dropTail_concat (cut : Char → Bool) (text : List Char) (c : Char) :
    dropTail cut (text ++ [c]) = if cut c then dropTail cut text else text ++ [c] := by
  unfold dropTail
  rw [List.reverse_append, List.reverse_singleton, List.singleton_append, List.dropWhile_cons]
  split
  · rfl
  · rw [List.reverse_cons, List.reverse_reverse]

end Text

/-! ### Line feeds in a block -/

/-- Whether nothing but a line feed is covered of a line of a block, the lines counted from zero
and the closing line last. -/
def BareAt (opened : List (List Char)) (content : List Char) (index : Nat) : Prop :=
  (opened ++ [content ++ ['\n']])[index]? = some ['\n']

theorem bareAt_last {opened : List (List Char)} {content : List Char} :
    BareAt opened content opened.length ↔ content = [] := by
  unfold BareAt
  rw [List.getElem?_concat_length, Option.some.injEq]
  exact List.append_left_eq_self

/-- A line before the closing one does not depend on whether it is seen as the closing line. -/
theorem bareAt_concat {opened : List (List Char)} {body : List Char} {index : Nat}
    (inside : index ≤ opened.length) :
    BareAt (opened ++ [body ++ ['\n']]) [] index ↔ BareAt opened body index := by
  unfold BareAt
  rw [List.getElem?_append_left (by simpa using Nat.lt_succ_of_le inside)]

theorem count_dropTail_of_content {opened : List (List Char)}
    (fed : ∀ line ∈ opened, FedLine line) {content : List Char} (noFeed : '\n' ∉ content)
    (written : content ≠ []) :
    (Text.dropTail (· == '\n') (opened.flatten ++ content)).count '\n' = opened.length := by
  obtain ⟨front, c, rfl⟩ := (List.eq_nil_or_concat content).resolve_left written
  rw [List.concat_eq_append] at noFeed ⊢
  have differs : ¬ (c == '\n') = true := fun same =>
    noFeed (beq_iff_eq.mp same ▸ List.mem_append_right _ (List.mem_singleton_self c))
  rw [← List.append_assoc, Text.dropTail_concat, if_neg differs, List.append_assoc,
    List.count_append, Text.count_flatten_of_fed fed, List.count_eq_zero_of_not_mem noFeed,
    Nat.add_zero]

/-- Without the line feeds at its end, the part that a block covers has as many line feeds as there
are lines before the last one that is not bare. The induction takes away the last line that the
block has open: with an empty closing line, what comes before its line feed is at the end. -/
theorem count_dropTail {opened : List (List Char)} (fed : ∀ line ∈ opened, FedLine line)
    {content : List Char} (noFeed : '\n' ∉ content) :
    ∃ last, (Text.dropTail (· == '\n') (opened.flatten ++ content)).count '\n' = last ∧
      last ≤ opened.length ∧
      (∀ index, last < index → index ≤ opened.length → BareAt opened content index) ∧
      (last = 0 ∨ ¬ BareAt opened content last) := by
  induction opened using List.reverseRecOn generalizing content with
  | nil =>
    refine ⟨0, ?_, Nat.le_refl _,
      fun index later inside => absurd inside (Nat.not_le_of_lt later), .inl rfl⟩
    refine List.count_eq_zero_of_not_mem fun inside => noFeed ?_
    rw [List.flatten_nil, List.nil_append] at inside
    exact (Scanner.dropTail_isPrefix _ _).subset inside
  | append_singleton opened line inductionHypothesis =>
    by_cases empty : content = []
    · subst empty
      obtain ⟨fedBefore, fedLine⟩ := List.forall_mem_append.mp fed
      obtain ⟨body, rfl, noFeedBody⟩ := fedLine line (List.mem_singleton_self line)
      obtain ⟨last, count, inside, bare, ends⟩ := inductionHypothesis fedBefore noFeedBody
      refine ⟨last, ?_, ?_, fun index later within => ?_, ?_⟩
      · rw [← count, List.append_nil, List.flatten_append, List.flatten_singleton,
          ← List.append_assoc, Text.dropTail_concat, if_pos (by rfl)]
      · rw [List.length_append]
        exact Nat.le_add_right_of_le inside
      · rw [List.length_append, List.length_singleton] at within
        rcases Nat.le_or_eq_of_le_succ within with earlier | rfl
        · exact (bareAt_concat earlier).mpr (bare index later earlier)
        · have closing := (@bareAt_last (opened ++ [body ++ ['\n']]) []).mpr rfl
          rwa [List.length_append, List.length_singleton] at closing
      · rwa [bareAt_concat inside]
    · refine ⟨_, count_dropTail_of_content fed noFeed empty, Nat.le_refl _,
        fun index later within => absurd within (Nat.not_le_of_lt later), .inr ?_⟩
      rwa [bareAt_last]

/-! ### The range of a block -/

/-- A range of lines in words. -/
def linesText (first last : Nat) : String :=
  if first = last then s!"line {first}" else s!"lines {first}-{last}"

theorem line_ne_lines (first last : Nat) : s!"line {first}" ≠ s!"lines {first}-{last}" := by
  intro same
  have chars := congrArg String.toList same
  simp only [String.toList_append, List.append_assoc] at chars
  -- The fifth character is a blank on one side only.
  cases chars

/-- With the same first line, the words tell the last line. -/
theorem linesText_inj {first last other : Nat} :
    linesText first last = linesText first other ↔ last = other := by
  unfold linesText
  constructor
  · intro same
    split at same
    · split at same
      · omega
      · exact absurd same (line_ne_lines first other)
    · split at same
      · exact absurd same.symm (line_ne_lines first last)
      · have chars := congrArg String.toList same
        simp only [String.toList_append, List.append_cancel_left_eq] at chars
        exact Nat.repr_inj.mp (String.toList_inj.mp chars)
  · rintro rfl
    rfl

/-- The line with this number, counted from one. -/
def lineAt (source : List Char) (number : Nat) : List Char :=
  (splitLines source)[number - 1]?.getD []

/-- Whether a block covers nothing of one of its lines but a line feed: the content of the closing
line is empty, or another line is a line feed only. -/
def Block.IsBare (block : Block) (source : List Char) (number : Nat) : Prop :=
  if number = block.endLine then lineContent (lineAt source number) = []
  else lineAt source number = ['\n']

instance (block : Block) (source : List Char) (number : Nat) :
    Decidable (block.IsBare source number) :=
  inferInstanceAs (Decidable (if number = block.endLine then
    lineContent (lineAt source number) = [] else lineAt source number = ['\n']))

/-- The last line of a block of which it covers more than a line feed, or else its first line. -/
structure Block.LastCovered (block : Block) (source : List Char) (last : Nat) : Prop where
  first_le : block.startLine ≤ last
  le_end : last ≤ block.endLine
  bare_after : ∀ number, last < number → number ≤ block.endLine → block.IsBare source number
  not_bare : last = block.startLine ∨ ¬ block.IsBare source last

/-- That is the closing line if it has content or is also the first. -/
theorem Block.LastCovered.eq_end_iff {block : Block} {source : List Char} {last : Nat}
    (covered : block.LastCovered source last) :
    last = block.endLine ↔
      block.startLine = block.endLine ∨ ¬ block.IsBare source block.endLine := by
  constructor
  · rintro rfl
    exact covered.not_bare.imp_left Eq.symm
  · intro ends
    refine Nat.le_antisymm covered.le_end (Nat.le_of_not_lt fun earlier => ?_)
    rcases ends with single | written
    · exact absurd covered.first_le (by omega)
    · exact written (covered.bare_after _ earlier (Nat.le_refl _))

namespace Block.StandsOn

variable {block : Block} {before opened later : List (List Char)} {closing source : List Char}

theorem isBare_iff (stands : block.StandsOn before opened closing)
    (lines : splitLines source = before ++ opened ++ closing :: later) {index : Nat}
    (inside : index ≤ opened.length) :
    block.IsBare source (block.startLine + index) ↔
      BareAt opened (lineContent closing) index := by
  have number : block.startLine + index - 1 = before.length + index := by
    rw [stands.startLine]
    omega
  have found : lineAt source (block.startLine + index) =
      (opened ++ closing :: later)[index]?.getD [] := by
    rw [lineAt, number, lines, List.append_assoc,
      List.getElem?_append_right (Nat.le_add_right _ _), Nat.add_sub_cancel_left]
  rw [IsBare, found, stands.startLine, stands.endLine]
  rcases Nat.lt_or_eq_of_le inside with earlier | rfl
  · rw [if_neg (by omega), BareAt, List.getElem?_append_left earlier,
      List.getElem?_append_left earlier, List.getElem?_eq_getElem earlier, Option.getD_some,
      Option.some.injEq]
  · rw [if_pos (by omega), bareAt_last, List.getElem?_append_right (Nat.le_refl _), Nat.sub_self]
    rfl

/-- The range of a block runs from its first line to the last one that it covers. -/
theorem lineRange_eq (stands : block.StandsOn before opened closing)
    (lines : splitLines source = before ++ opened ++ closing :: later) :
    ∃ last, block.LastCovered source last ∧
      lineRange source block.span = linesText block.startLine last := by
  obtain ⟨fed, closingFed⟩ := fed_of_splitLines lines
  obtain ⟨fedBefore, fedOpened⟩ := List.forall_mem_append.mp fed
  obtain ⟨after, whole, covered⟩ := stands.slice? lines
  obtain ⟨last, count, within, bare, ends⟩ :=
    count_dropTail fedOpened (lineFeed_notMem_lineContent closingFed)
  have cut : Text.splitAtByte? block.span.start source =
      some (before.flatten, (opened.flatten ++ lineContent closing) ++ after) := by
    conv_lhs => rw [whole]
    rw [stands.start, Text.splitAtByte?_byteLength]
  have endLine := stands.endLine
  have startLine := stands.startLine
  refine ⟨block.startLine + last, ⟨Nat.le_add_right _ _, by omega, fun number after inside => ?_,
    ?_⟩, ?_⟩
  · obtain ⟨index, rfl⟩ := Nat.exists_eq_add_of_le (show block.startLine ≤ number by omega)
    exact (stands.isBare_iff lines (by omega)).mpr (bare index (by omega) (by omega))
  · rw [stands.isBare_iff lines within]
    exact ends.imp_left fun first => by omega
  · simp only [lineRange, cut, covered]
    rw [Text.count_eq, Text.count_eq, count, Text.count_flatten_of_fed fedBefore, ← startLine,
      linesText]
    by_cases single : last = 0
    · rw [if_pos (beq_iff_eq.mpr single), if_pos (by omega)]
    · rw [if_neg (by simpa using single), if_neg (by omega)]

end Block.StandsOn

/-- The range of a scanned block runs from its first line to the last one that it covers. -/
theorem Scanner.lineRange_of_mem_scan {scanner : Scanner} {source : List Char} {block : Block}
    (member : block ∈ scanner.scan source) :
    ∃ last, block.LastCovered source last ∧
      lineRange source block.span = linesText block.startLine last := by
  obtain ⟨before, opened, closing, later, lines, stands, -⟩ := scanner.standsOn_of_mem_scan member
  exact stands.lineRange_eq lines

/-! ### Blocks that an empty line closes -/

/-- The standard settings, but it is an empty line that closes a block. -/
def ParserConfig.emptyLineClosing : ParserConfig :=
  { ParserConfig.standard with closePattern := "^$" }

theorem DocParser.isSome_ofConfig_emptyLineClosing :
    (ofConfig .emptyLineClosing .builtin).toOption.isSome = true := by
  decide +kernel

/-- The parser of these settings and the built-in tag types. -/
def DocParser.emptyLineClosing : DocParser :=
  (ofConfig .emptyLineClosing .builtin).toOption.get isSome_ofConfig_emptyLineClosing

theorem DocBuilder.ofConfig_emptyLineClosing :
    ofConfig .emptyLineClosing .builtin = .ok ⟨.emptyLineClosing, .empty⟩ :=
  ofConfig_eq_ok_iff.mpr
    ⟨_, DocParser.ofConfig_eq_ok_get DocParser.isSome_ofConfig_emptyLineClosing, rfl⟩

/-! ### The report of a refused source -/

namespace DocBuilder

theorem parseSource_eq_error_iff {builder : DocBuilder} {path : String} {source : List Char}
    {failure : Failure} :
    (builder.parseSource path source).2 = .error failure ↔
      ∃ diagnostic, builder.parser.parse path source = .error diagnostic ∧
        failure = .parse [diagnostic] path source := by
  unfold parseSource
  simp only [discover]
  cases builder.parser.parse path source with
  | ok elements =>
    refine iff_of_false (fun failed => by cases failed) ?_
    rintro ⟨diagnostic, failed, -⟩
    cases failed
  | error diagnostic =>
    simp only [Except.error.injEq, exists_eq_left', eq_comm]

/-- What the report of a refused source says of lines. The one primary label of its one report is
on the block at which the source is refused, and it names the lines from the first line of the
block to the last one that the block covers. These are all lines of the block if and only if it has
a single line or its closing line has content. -/
theorem reports_name_lines (builder : DocBuilder) (path : String) (source : List Char)
    {failure : Failure} (failed : (builder.parseSource path source).2 = .error failure) :
    ∃ block diagnostic report label last,
      builder.parser.RefusedAt path source block diagnostic ∧
      failure = .parse [diagnostic] path source ∧
      failure.reports = [report] ∧
      report.labels.filter (·.primary) = [label] ∧
      label.offset = block.span.start ∧ label.length = block.span.length ∧
      block.LastCovered source last ∧
      label.text = s!"in this doc block, {linesText block.startLine last}" ∧
      (label.text = s!"in this doc block, {linesText block.startLine block.endLine}" ↔
        block.startLine = block.endLine ∨ ¬ block.IsBare source block.endLine) := by
  obtain ⟨diagnostic, refused, rfl⟩ := parseSource_eq_error_iff.mp failed
  obtain ⟨block, history, refusedAt, refusedBlock⟩ := DocParser.exists_refusedAt refused
  obtain ⟨others, labels, secondary⟩ := DocParser.labels_of_refusedBlock refusedBlock
  obtain ⟨last, covered, range⟩ := Scanner.lineRange_of_mem_scan refusedAt.mem_scan
  have text : ((Rejection.blockLabel block.span).report source).text =
      s!"in this doc block, {linesText block.startLine last}" := by
    rw [← range]
    rfl
  have noOther : (others.map (Label.report source)).filter (·.primary) = [] := by
    rw [List.filter_eq_nil_iff]
    intro label member
    obtain ⟨own, inside, rfl⟩ := List.mem_map.mp member
    rw [Label.report, secondary own inside]
    exact Bool.false_ne_true
  refine ⟨block, diagnostic, diagnostic.report path source,
    (Rejection.blockLabel block.span).report source, last, refusedAt, rfl, rfl, ?_, rfl, rfl,
    covered, text, ?_⟩
  · rw [Diagnostic.report, labels, List.map_cons, List.filter_cons_of_pos (by rfl), noOther]
  · rw [text, ← covered.eq_end_iff]
    exact (String.append_right_inj _).trans linesText_inj

/-- A block on the lines 2 and 3, the second of which is empty, is reported to be on line 2. -/
theorem reports_name_lines_emptyLine :
    ofConfig .emptyLineClosing .builtin = .ok ⟨.emptyLineClosing, .empty⟩ ∧
    ∃ failure report label,
      (parseSource ⟨.emptyLineClosing, .empty⟩ "lib.js"
        "let a;\n/** @bogus x\n\n".toList).2 = .error failure ∧
      failure.reports = [report] ∧ report.labels.filter (·.primary) = [label] ∧
      label.text = "in this doc block, line 2" := by
  have failed : (parseSource ⟨.emptyLineClosing, .empty⟩ "lib.js"
      "let a;\n/** @bogus x\n\n".toList).2 = .error (.parse
        [(Rejection.unknownTag 0 "bogus").locate (Span.between 7 20) [Span.between 11 17]]
        "lib.js" "let a;\n/** @bogus x\n\n".toList) := by
    decide +kernel
  have scanned : DocParser.emptyLineClosing.scanner.scan "let a;\n/** @bogus x\n\n".toList =
      [⟨2, 3, Span.between 7 20, " @bogus x\n".toList⟩] := by
    decide +kernel
  obtain ⟨block, diagnostic, report, label, last, refusedAt, -, reports, labels, -, -, covered,
    text, -⟩ := reports_name_lines _ _ _ failed
  have only := refusedAt.mem_scan
  rw [scanned, List.mem_singleton] at only
  subst only
  have bare : ¬ (2 = 3 ∨ ¬ Block.IsBare ⟨2, 3, Span.between 7 20, " @bogus x\n".toList⟩
      "let a;\n/** @bogus x\n\n".toList 3) := by
    decide +kernel
  have ends : last = 2 := by
    have first : 2 ≤ last := covered.first_le
    have inside : last ≤ 3 := covered.le_end
    have differs : last ≠ 3 := fun same => bare (covered.eq_end_iff.mp same)
    omega
  refine ⟨ofConfig_emptyLineClosing, _, report, label, failed, reports, labels, ?_⟩
  rw [text, ends]
  decide +kernel

/-- So the primary label does not always name the lines that the scan counted. -/
theorem reports_omit_empty_closing_line :
    ¬ ∀ (config : ParserConfig) (table : TagTable) (builder : DocBuilder) (path : String)
        (source : List Char) (failure : Failure) (block : Block) (diagnostic : Diagnostic),
      ofConfig config table = .ok builder →
      (builder.parseSource path source).2 = .error failure →
      builder.parser.RefusedAt path source block diagnostic →
      ∀ report ∈ failure.reports, ∀ label ∈ report.labels, label.primary = true →
        label.text = s!"in this doc block, {linesText block.startLine block.endLine}" := by
  intro always
  have refused : DocParser.emptyLineClosing.RefusedAt "lib.js" "/** @bogus x\n\n".toList
      ⟨1, 2, Span.between 0 13, " @bogus x\n".toList⟩
      ((Rejection.unknownTag 0 "bogus").locate (Span.between 0 13) [Span.between 4 10]) :=
    ⟨[], [], [], by decide +kernel, by decide +kernel, by decide +kernel⟩
  have named := always .emptyLineClosing .builtin ⟨.emptyLineClosing, .empty⟩ "lib.js"
    "/** @bogus x\n\n".toList _ _ _ ofConfig_emptyLineClosing
    (parseSource_eq_error_iff.mpr ⟨_, refused.parse_eq_error, rfl⟩) refused
  revert named
  decide +kernel

end DocBuilder

end DocComments
