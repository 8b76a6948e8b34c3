/-
This file proves that indenting a whole source changes nothing in its documentation, as long as
blocks are delimited in the standard way.

The lines of an indented source are the indented lines of the source. Spaces and tabs in front of
a line are passed over by both searches: they are white space, which may stand before an opening
delimiter, and they cannot be part of a closing one. So both delimiters are found as many
characters further right, and that much more is stripped from every line of a block, also from
one that is shorter than the column at which the opening delimiter ends.
-/

import DocComments.Proofs.AlikeSources
import DocComments.Proofs.BlockLines
import DocComments.Proofs.Delimiters
import Mathlib.Data.List.Forall2

namespace DocComments

/-! ### Lines and the text they make -/

/-- The text with an indent in front of every line, also of empty ones. -/
def indentLines (indent : List Char) (text : List Char) : List Char :=
  ((splitLines text).map (indent ++ ·)).flatten

/-- Lines as they are cut from a text: each ends with its only line feed, but the last may lack
one if it is not empty. -/
def ProperLines : List (List Char) → Prop
  | [] => True
  | [line] => FedLine line ∨ line ≠ [] ∧ '\n' ∉ line
  | line :: next :: lines => FedLine line ∧ ProperLines (next :: lines)

theorem FedLine.append {front line : List Char} (noFeed : '\n' ∉ front) (fed : FedLine line) :
    FedLine (front ++ line) := by
  obtain ⟨body, rfl, noneInside⟩ := fed
  refine ⟨front ++ body, (List.append_assoc _ _ _).symm, ?_⟩
  rw [List.mem_append]
  exact not_or.mpr ⟨noFeed, noneInside⟩

theorem ProperLines.cons_of_fed {line : List Char} {lines : List (List Char)}
    (fed : FedLine line) (proper : ProperLines lines) : ProperLines (line :: lines) := by
  cases lines with
  | nil => exact .inl fed
  | cons => exact ⟨fed, proper⟩

/-- Text without line feeds may be put in front of the first line. -/
theorem ProperLines.append_head {front line : List Char} {lines : List (List Char)}
    (noFeed : '\n' ∉ front) (proper : ProperLines (line :: lines)) :
    ProperLines ((front ++ line) :: lines) := by
  cases lines with
  | nil =>
    rcases proper with fed | ⟨nonempty, noneInside⟩
    · exact .inl (fed.append noFeed)
    · refine .inr ⟨fun empty => nonempty (List.append_eq_nil_iff.mp empty).2, ?_⟩
      rw [List.mem_append]
      exact not_or.mpr ⟨noFeed, noneInside⟩
  | cons => exact ⟨proper.1.append noFeed, proper.2⟩

theorem properLines_splitLines (text : List Char) : ProperLines (splitLines text) := by
  fun_induction splitLines text with
  | case1 => trivial
  | case2 c rest feed inductionHypothesis =>
    have single : FedLine [c] := ⟨[], by rw [beq_iff_eq.mp feed]; rfl, List.not_mem_nil⟩
    exact inductionHypothesis.cons_of_fed single
  | case3 c rest other noLines inductionHypothesis =>
    have differs : '\n' ∉ [c] := fun inside =>
      other (beq_iff_eq.mpr (List.mem_singleton.mp inside).symm)
    exact .inr ⟨List.cons_ne_nil c [], differs⟩
  | case4 c rest other line lines restLines inductionHypothesis =>
    have differs : '\n' ∉ [c] := fun inside =>
      other (beq_iff_eq.mpr (List.mem_singleton.mp inside).symm)
    rw [restLines] at inductionHypothesis
    exact inductionHypothesis.append_head differs

theorem ProperLines.map_append {front : List Char} (noFeed : '\n' ∉ front)
    {lines : List (List Char)} (proper : ProperLines lines) :
    ProperLines (lines.map (front ++ ·)) := by
  induction lines with
  | nil => trivial
  | cons line lines inductionHypothesis =>
    cases lines with
    | nil => exact proper.append_head noFeed
    | cons => exact ⟨proper.1.append noFeed, inductionHypothesis proper.2⟩

theorem splitLines_of_noFeed {line : List Char} (nonempty : line ≠ []) (noFeed : '\n' ∉ line) :
    splitLines line = [line] := by
  induction line with
  | nil => exact absurd rfl nonempty
  | cons c line inductionHypothesis =>
    obtain ⟨differs, noneLeft⟩ := not_or.mp (mt List.mem_cons.mpr noFeed)
    rw [splitLines_cons (Ne.symm differs)]
    cases line with
    | nil => rfl
    | cons d line =>
      rw [inductionHypothesis (List.cons_ne_nil d line) noneLeft]
      rfl

theorem FedLine.splitLines_append {line : List Char} (fed : FedLine line) (rest : List Char) :
    splitLines (line ++ rest) = line :: splitLines rest := by
  obtain ⟨body, rfl, noFeed⟩ := fed
  have whole : WholeLines (body ++ ['\n']) := .inr List.getLast?_concat
  have alone : splitLines (body ++ ['\n']) = [body ++ ['\n']] := by
    clear whole
    induction body with
    | nil => rfl
    | cons c body inductionHypothesis =>
      obtain ⟨differs, noneLeft⟩ := not_or.mp (mt List.mem_cons.mpr noFeed)
      rw [List.cons_append, splitLines_cons (Ne.symm differs), inductionHypothesis noneLeft]
      rfl
  rw [DocComments.splitLines_append whole, alone, List.singleton_append]

/-- Proper lines put together are cut apart again. -/
theorem splitLines_flatten {lines : List (List Char)} (proper : ProperLines lines) :
    splitLines lines.flatten = lines := by
  induction lines with
  | nil => rfl
  | cons line lines inductionHypothesis =>
    rw [List.flatten_cons]
    cases lines with
    | nil =>
      rw [List.flatten_nil]
      rcases proper with fed | ⟨nonempty, noFeed⟩
      · exact fed.splitLines_append []
      · rw [List.append_nil]
        exact splitLines_of_noFeed nonempty noFeed
    | cons => rw [proper.1.splitLines_append, inductionHypothesis proper.2]

/-- The lines of an indented text are the indented lines of the text. -/
theorem splitLines_indentLines {indent : List Char} (noFeed : '\n' ∉ indent)
    (text : List Char) :
    splitLines (indentLines indent text) = (splitLines text).map (indent ++ ·) :=
  splitLines_flatten ((properLines_splitLines text).map_append noFeed)

theorem ne_of_isBlank {c other : Char} (blank : Text.isBlank c = true)
    (inked : Text.isBlank other = false) : other ≠ c := by
  rintro rfl
  rw [blank] at inked
  cases inked

theorem notMem_of_isBlank {indent : List Char} (blank : ∀ c ∈ indent, Text.isBlank c = true)
    {other : Char} (inked : Text.isBlank other = false) : other ∉ indent := fun member =>
  ne_of_isBlank (blank other member) inked rfl

/-- A source and the same source indented are alike. -/
theorem linesAlike_indentLines {indent : List Char}
    (blank : ∀ c ∈ indent, Text.isBlank c = true) (source : List Char) :
    LinesAlike indent source (indentLines indent source) := by
  have noFeed : '\n' ∉ indent := notMem_of_isBlank blank rfl
  have noReturn : '\r' ∉ indent := notMem_of_isBlank blank rfl
  rw [LinesAlike, splitLines_indentLines noFeed, List.forall₂_map_right_iff, List.forall₂_same]
  exact fun line _ => lineContent_append noFeed noReturn line

/-! ### Standard delimiters behind an indent -/

theorem isWhiteSpace_of_isBlank {c : Char} (blank : Text.isBlank c = true) :
    Text.isWhiteSpace c = true := by
  rcases Bool.or_eq_true_iff.mp blank with space | tab
  · rw [beq_iff_eq.mp space]
    rfl
  · rw [beq_iff_eq.mp tab]
    rfl

theorem openingStop?_append {indent : List Char}
    (blank : ∀ c ∈ indent, Text.isBlank c = true) (line : List Char) :
    Pattern.openingStop? (indent ++ line) =
      (Pattern.openingStop? line).map (indent.length + ·) := by
  have spaces : ∀ c ∈ indent, Text.isWhiteSpace c = true := fun c member =>
    isWhiteSpace_of_isBlank (blank c member)
  unfold Pattern.openingStop?
  rw [List.dropWhile_append_of_pos spaces, List.takeWhile_append_of_pos spaces]
  split
  · rw [List.length_append, Option.map_some, Nat.add_assoc]
  · rfl

theorem splitFirstPair?_cons_of_ne {first second c : Char} (differs : first ≠ c)
    (text : List Char) :
    Text.splitFirstPair? first second (c :: text) =
      (Text.splitFirstPair? first second text).map fun cut => (c :: cut.1, cut.2) := by
  have other : ¬ (c == first) = true := fun same => differs (beq_iff_eq.mp same).symm
  cases text with
  | nil => rfl
  | cons d text => simp [Text.splitFirstPair?, other]

/-- Text without the first character of a pair does not hide where the pair first stands. -/
theorem splitFirstPair?_append {first second : Char} {front : List Char}
    (without : first ∉ front) (text : List Char) :
    Text.splitFirstPair? first second (front ++ text) =
      (Text.splitFirstPair? first second text).map fun cut => (front ++ cut.1, cut.2) := by
  induction front with
  | nil => simp
  | cons c front inductionHypothesis =>
    obtain ⟨differs, noneLeft⟩ := not_or.mp (mt List.mem_cons.mpr without)
    rw [List.cons_append, splitFirstPair?_cons_of_ne differs, inductionHypothesis noneLeft,
      Option.map_map]
    rfl

/-- With the standard delimiters every indent of blanks is passed over. -/
theorem Scanner.passes_of_isBlank {scanner : Scanner}
    (opens : scanner.opens = Pattern.blockOpening.inLine)
    (closes : scanner.closes = Pattern.blockClosing.inLine) {indent : List Char}
    (blank : ∀ c ∈ indent, Text.isBlank c = true) : scanner.Passes indent where
  blank := blank
  opens line := by
    rw [opens, Pattern.inLine_blockOpening, Pattern.inLine_blockOpening,
      openingStop?_append blank, Option.map_map, Option.map_map, Option.map_map]
    rfl
  closes line := by
    have noStar : '*' ∉ indent := notMem_of_isBlank blank rfl
    rw [closes, Pattern.inLine_blockClosing, Pattern.inLine_blockClosing,
      splitFirstPair?_append noStar, Option.map_map, Option.map_map, Option.map_map]
    refine congrArg (fun found => Option.map found _) (funext fun cut => ?_)
    simp only [Function.comp_apply, List.length_append]

namespace DocParser

/-- The searches of a parser that is configured with the standard delimiters. -/
theorem delimiters_of_ofConfig {config : ParserConfig} {table : TagTable} {parser : DocParser}
    (accepted : ofConfig config table = .ok parser)
    (opening : config.openPattern = ParserConfig.standard.openPattern)
    (closing : config.closePattern = ParserConfig.standard.closePattern) :
    parser.scanner.opens = Pattern.blockOpening.inLine ∧
      parser.scanner.closes = Pattern.blockClosing.inLine := by
  obtain ⟨patterns, opens, closes, -, rfl⟩ := exists_patterns_of_ofConfig accepted
  rw [opening, Patterns.readSetting, Pattern.read?_blockOpening] at opens
  rw [closing, Patterns.readSetting, Pattern.read?_blockClosing] at closes
  exact ⟨congrArg Pattern.inLine (Except.ok.inj opens).symm,
    congrArg Pattern.inLine (Except.ok.inj closes).symm⟩

/-- With the standard delimiters and whatever other settings, a source with spaces and tabs put in
front of every line has the same blocks, block by block of the same lines and with the same text.
It is parsed to the same elements, or refused with the same code, message and hint. -/
theorem parse_indentLines {config : ParserConfig} {table : TagTable} {parser : DocParser}
    (accepted : ofConfig config table = .ok parser)
    (opening : config.openPattern = ParserConfig.standard.openPattern)
    (closing : config.closePattern = ParserConfig.standard.closePattern) {indent : List Char}
    (blank : ∀ c ∈ indent, c = ' ' ∨ c = '\t') (sourcePath : String) (source : List Char) :
    (parser.scanner.scan (indentLines indent source)).map Block.unplaced =
      (parser.scanner.scan source).map Block.unplaced ∧
    (parser.parse sourcePath (indentLines indent source)).mapError Diagnostic.unlabelled =
      (parser.parse sourcePath source).mapError Diagnostic.unlabelled := by
  have isBlank : ∀ c ∈ indent, Text.isBlank c = true := fun c member => by
    simpa [Text.isBlank] using blank c member
  obtain ⟨opens, closes⟩ := delimiters_of_ofConfig accepted opening closing
  have sameBlocks := Scanner.scan_of_linesAlike (Scanner.passes_of_isBlank opens closes isBlank)
    (linesAlike_indentLines isBlank source)
  exact ⟨sameBlocks, parse_of_unplaced sameBlocks sourcePath⟩

/-- A block with an empty line, with a line that is shorter than the column at which its opening
delimiter ends, and with text before its closing delimiter. -/
theorem parse_indentLines_standard :
    ofConfig .standard .builtin = .ok standard ∧
    indentLines " \t".toList " /** Reads.\n\nx\n   * @class A\n     @author B */".toList =
      " \t /** Reads.\n \t\n \tx\n \t   * @class A\n \t     @author B */".toList ∧
    (standard.scanner.scan
        " \t /** Reads.\n \t\n \tx\n \t   * @class A\n \t     @author B */".toList).map
          Block.unplaced =
      [⟨1, 5, Span.between 0 0, " Reads.\n\n\n @class A\n @author B\n".toList⟩] ∧
    (standard.parse "lib.js"
        " \t /** Reads.\n \t\n \tx\n \t   * @class A\n \t     @author B */".toList).mapError
          Diagnostic.unlabelled =
      .ok [⟨"A", ⟨"A", ⟨1, 5, "lib.js", none, "class", "Reads.",
        ⟨[(.author, .text "B")]⟩⟩⟩⟩] := by
  have blank : ∀ c ∈ " \t".toList, c = ' ' ∨ c = '\t' := fun c member => by
    simpa using member
  obtain ⟨scanned, parsed⟩ := parse_indentLines ofConfig_standard rfl rfl blank "lib.js"
    " /** Reads.\n\nx\n   * @class A\n     @author B */".toList
  refine ⟨ofConfig_standard, by decide +kernel, scanned.trans ?_, parsed.trans ?_⟩
  all_goals decide +kernel

end DocParser

end DocComments
