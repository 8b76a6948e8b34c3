/-
This file proves at which block a refused source is refused, and how its diagnostic is labelled.

Blocks are taken in turn. Those without tags are passed over, and each of the others has to be
classified and its name resolved after the names before it; the first that is not decides. The
diagnostic begins with one primary label, from the start of the first line of the block to the end
of the content of its last line. All other labels are secondary. They are on markers that a search
finds in this part of the source, so they lie inside of it, between characters; and since a refusal
names the tags it is about in their order, and markers follow each other, so do these labels.
-/

import DocComments.Proofs.BlockExtents
import DocComments.Proofs.MatchOrder
import DocComments.Proofs.ReportedLines
import DocComments.Proofs.TagPlaces

namespace DocComments

/-! ### The block that decides -/

namespace DocParser

/-- Blocks are accepted in turn: one without tags is passed over, and any other is classified and
its name is resolved, which changes the history for those after it. -/
inductive AcceptsInTurn (parser : DocParser) (sourcePath : String) :
    History → List Block → History → Prop where
  | none (history : History) : AcceptsInTurn parser sourcePath history [] history
  | untagged {history later : History} {block : Block} {blocks : List Block}
      (untagged : parser.search.cut? block.text = .none)
      (rest : AcceptsInTurn parser sourcePath history blocks later) :
      AcceptsInTurn parser sourcePath history (block :: blocks) later
  | tagged {history next later : History} {block : Block} {blocks : List Block}
      {tagged : TaggedText} {record : ElementRecord} {path : String}
      (cut : parser.search.cut? block.text = some tagged)
      (classified : parser.classifier.classify tagged block sourcePath = .ok record)
      (resolved : history.resolve record.declaredName = .ok (path, next))
      (rest : AcceptsInTurn parser sourcePath next blocks later) :
      AcceptsInTurn parser sourcePath history (block :: blocks) later

variable {parser : DocParser} {sourcePath : String} {source : List Char} {history : History}
  {block : Block} {blocks : List Block} {diagnostic : Diagnostic}

/-- A refusal is that of the first block that is not accepted. -/
theorem exists_first_refused
    (refused : parser.parseBlocks sourcePath source history blocks = .error diagnostic) :
    ∃ before block after later, blocks = before ++ block :: after ∧
      parser.AcceptsInTurn sourcePath history before later ∧
      parser.parseBlock sourcePath source later block = .error diagnostic := by
  induction blocks generalizing history with
  | nil => cases refused
  | cons block blocks inductionHypothesis =>
    rw [parseBlocks_cons] at refused
    cases step : parser.parseBlock sourcePath source history block with
    | error own =>
      rw [step] at refused
      cases refused
      exact ⟨[], block, blocks, history, rfl, .none history, step⟩
    | ok parsed =>
      obtain ⟨element, next⟩ := parsed
      rw [step] at refused
      have refusedRest : parser.parseBlocks sourcePath source next blocks = .error diagnostic := by
        cases rest : parser.parseBlocks sourcePath source next blocks with
        | ok elements =>
          simp only [rest] at refused
          cases refused
        | error own =>
          simp only [rest] at refused
          cases refused
          rfl
      obtain ⟨before, other, after, later, rfl, accepted, reason⟩ :=
        inductionHypothesis refusedRest
      refine ⟨block :: before, other, after, later, rfl, ?_, reason⟩
      rcases parseBlock_eq_ok_iff.mp step with
        ⟨untagged, -, rfl⟩ | ⟨tagged, record, path, cut, classified, resolved, -⟩
      · exact .untagged untagged accepted
      · exact .tagged cut classified resolved accepted

end DocParser

/-! ### Codes -/

/-- The codes of refused blocks: those of their tags, and those of their names. -/
def Code.ofBlocks : List Code :=
  [.missingElementTag, .duplicateElementTag, .missingElementName, .unknownTag, .malformedValue,
   .invalidElementPath, .noParentElement]

theorem Code.text_mem_of_mem_ofBlocks : ∀ code ∈ ofBlocks,
    code.text ∈ ["E100", "E101", "E102", "E103", "E104", "E200", "E201"] := by
  decide

theorem Classifier.exists_code_of_classify {classifier : Classifier} {tagged : TaggedText}
    {block : Block} {sourcePath : String} {rejection : Rejection}
    (refused : classifier.classify tagged block sourcePath = .error rejection) :
    ∃ code ∈ Code.ofBlocks, rejection.diagnostic.code = some code := by
  rcases refusedFor_of_classify refused with refusedFor | rfl
  · cases refusedFor with
    | duplicate => exact ⟨.duplicateElementTag, by decide, rfl⟩
    | nameless => exact ⟨.missingElementName, by decide, rfl⟩
    | malformed => exact ⟨.malformedValue, by decide, rfl⟩
    | unknown => exact ⟨.unknownTag, by decide, rfl⟩
  · exact ⟨.missingElementTag, by decide, rfl⟩

theorem PathError.code_mem_ofBlocks (error : PathError) : error.code ∈ Code.ofBlocks := by
  cases error with
  | invalid name => exact (by decide : Code.invalidElementPath ∈ Code.ofBlocks)
  | noParent name depth available => exact (by decide : Code.noParentElement ∈ Code.ofBlocks)

/-! ### Places between characters -/

namespace Text

/-- A byte offset that lies between two characters of a text, or at one of its ends. -/
def IsBoundary (text : List Char) (offset : Nat) : Prop :=
  ∃ before after, text = before ++ after ∧ byteLength before = offset

theorem IsBoundary.le_byteLength {text : List Char} {offset : Nat}
    (boundary : IsBoundary text offset) : offset ≤ byteLength text := by
  obtain ⟨before, after, rfl, rfl⟩ := boundary
  rw [byteLength_append]
  exact Nat.le_add_right _ _

theorem isBoundary_take (before part after : List Char) (count : Nat) :
    IsBoundary (before ++ (part ++ after)) (byteLength before + byteLength (part.take count)) := by
  refine ⟨before ++ part.take count, part.drop count ++ after, ?_, byteLength_append _ _⟩
  rw [List.append_assoc, ← List.append_assoc (part.take count), List.take_append_drop]

theorem byteLength_take_le_take {first second : Nat} (le : first ≤ second) (text : List Char) :
    byteLength (text.take first) ≤ byteLength (text.take second) := by
  obtain ⟨rest, longer⟩ := List.take_prefix_take_left le (l := text)
  rw [← longer, byteLength_append]
  exact Nat.le_add_right _ _

theorem byteLength_take_le (count : Nat) (text : List Char) :
    byteLength (text.take count) ≤ byteLength text := by
  conv_rhs => rw [← List.take_append_drop count text]
  rw [byteLength_append]
  exact Nat.le_add_right _ _

theorem byteLength_take_lt_take {first second : Nat} (lt : first < second) {text : List Char}
    (inside : second ≤ text.length) :
    byteLength (text.take first) < byteLength (text.take second) := by
  have within : first < text.length := by omega
  have next := byteLength_take_le_take lt text
  have size := text[first].utf8Size_pos
  rw [List.take_succ_eq_append_getElem within, byteLength_append, byteLength_cons] at next
  omega

end Text

/-! ### Lines of a block -/

/-- The byte offset at which the line with this number begins. -/
def lineStart (source : List Char) (number : Nat) : Nat :=
  Text.byteLength ((splitLines source).take (number - 1)).flatten

/-- The span of a scanned block runs from the start of its first line to the end of the content of
its last line, and both ends lie between characters. -/
theorem Scanner.span_of_mem_scan {scanner : Scanner} {source : List Char} {block : Block}
    (member : block ∈ scanner.scan source) :
    block.span.start = lineStart source block.startLine ∧
    (∃ content, contentAt (splitLines source) block.endLine = some content ∧
      block.span.stop = lineStart source block.endLine + Text.byteLength content) ∧
    Text.IsBoundary source block.span.start ∧ Text.IsBoundary source block.span.stop := by
  obtain ⟨before, opened, closing, later, lines, stands, -⟩ := scanner.standsOn_of_mem_scan member
  obtain ⟨after, around, -⟩ := stands.slice? lines
  have firstLine : (splitLines source).take (block.startLine - 1) = before := by
    rw [stands.startLine, Nat.add_sub_cancel, lines, List.append_assoc, List.take_left]
  have lastLine : (splitLines source).take (block.endLine - 1) = before ++ opened := by
    rw [stands.endLine, Nat.add_sub_cancel, lines, ← List.length_append, List.take_left]
  refine ⟨?_, ⟨lineContent closing, ?_, ?_⟩, ?_, ?_⟩
  · rw [lineStart, firstLine, stands.start]
  · rw [stands.endLine, lines, ← List.length_append, contentAt_length_succ]
  · rw [lineStart, lastLine, stands.stop, List.flatten_append, Text.byteLength_append,
      Nat.add_assoc]
  · exact ⟨before.flatten, _, around, stands.start.symm⟩
  · refine ⟨before.flatten ++ (opened.flatten ++ lineContent closing), after, ?_, ?_⟩
    · exact around.trans (List.append_assoc _ _ _).symm
    · rw [stands.stop, Text.byteLength_append, Text.byteLength_append]

/-! ### Places of markers -/

/-- A span lies before another one: it ends where the other starts or earlier, and starts earlier
in any case. -/
def Span.Precedes (first second : Span) : Prop :=
  first.stop ≤ second.start ∧ first.start < second.start

theorem Marker.Inside.start_le_stop {marker : Marker} {text : List Char}
    (inside : marker.Inside text) : marker.whole.start ≤ marker.name.stop :=
  Nat.le_trans inside.start_le inside.ordered

theorem Marker.Inside.stop_span {marker : Marker} {text : List Char} (inside : marker.Inside text)
    (offset : Nat) :
    (marker.span offset text).stop = offset + Text.byteLength (text.take marker.name.stop) :=
  Nat.max_eq_right
    (Nat.add_le_add_left (Text.byteLength_take_le_take inside.start_le_stop text) offset)

/-- Markers that follow each other in a text have spans that do. -/
theorem Marker.precedes_span {first second : Marker} {text : List Char}
    (firstInside : first.Inside text) (secondInside : second.Inside text)
    (stop_le : first.whole.stop ≤ second.whole.start)
    (start_lt : first.whole.start < second.whole.start) (offset : Nat) :
    (first.span offset text).Precedes (second.span offset text) := by
  have inside : second.whole.start ≤ text.length :=
    Nat.le_trans (Nat.le_trans secondInside.start_le_stop secondInside.stop_le)
      secondInside.before
  constructor
  · rw [firstInside.stop_span]
    exact Nat.add_le_add_left
      (Text.byteLength_take_le_take (Nat.le_trans firstInside.stop_le stop_le) text) offset
  · exact Nat.add_lt_add_left (Text.byteLength_take_lt_take start_lt inside) offset

namespace DocParser

variable {parser : DocParser} {source : List Char} {block : Block} {tagged : TaggedText}

theorem exists_search_of_ofConfig {config : ParserConfig} {table : TagTable}
    (accepted : ofConfig config table = .ok parser) :
    ∃ pattern : Pattern, parser.search = pattern.markers := by
  obtain ⟨patterns, -, -, -, rfl⟩ := exists_patterns_of_ofConfig accepted
  exact ⟨patterns.tag, rfl⟩

/-- Places are none, or those of all markers that the source has in the block. -/
theorem places_eq (taken : block.TakenFrom parser.scanner source) (tagged : TaggedText) :
    parser.places source block tagged = [] ∨
    parser.places source block tagged = (parser.search.markers (block.covered source)).map
      (Marker.span block.span.start (block.covered source)) := by
  simp only [places]
  rw [spans_eq taken]
  split
  · exact .inr rfl
  · exact .inl rfl

/-- The places of tags follow each other. -/
theorem pairwise_places (taken : block.TakenFrom parser.scanner source) {pattern : Pattern}
    (search : parser.search = pattern.markers) :
    (parser.places source block tagged).Pairwise Span.Precedes := by
  rcases places_eq taken tagged with none | all
  · rw [none]
    exact .nil
  · rw [all, search, List.pairwise_map]
    refine (pattern.pairwise_markers _).imp_of_mem fun {first second} inFirst inSecond ordered => ?_
    exact Marker.precedes_span (Pattern.inside_of_mem_markers inFirst)
      (Pattern.inside_of_mem_markers inSecond) ordered.1 ordered.2 _

/-- The places of tags lie inside the block and between characters. -/
theorem place_inside (taken : block.TakenFrom parser.scanner source) {pattern : Pattern}
    (search : parser.search = pattern.markers) {span : Span}
    (member : span ∈ parser.places source block tagged) :
    (block.span.start ≤ span.start ∧ span.stop ≤ block.span.stop) ∧
      Text.IsBoundary source span.start ∧ Text.IsBoundary source span.stop := by
  rcases places_eq taken tagged with none | all
  · rw [none] at member
    cases member
  · rw [all, search] at member
    obtain ⟨marker, found, rfl⟩ := List.mem_map.mp member
    have inside := Pattern.inside_of_mem_markers found
    obtain ⟨before, after, around, start, stop⟩ := taken.covers
    have boundary (count : Nat) : Text.IsBoundary source
        (block.span.start + Text.byteLength ((block.covered source).take count)) := by
      rw [start]
      conv => arg 1; rw [around]
      exact Text.isBoundary_take _ _ _ count
    refine ⟨⟨Nat.le_add_right _ _, ?_⟩, boundary _, ?_⟩
    · rw [inside.stop_span, stop, start]
      exact Nat.add_le_add_left (Text.byteLength_take_le _ _) _
    · rw [inside.stop_span]
      exact boundary _

end DocParser

/-! ### Labels -/

theorem Classifier.RefusedFor.pairwise_marks {classifier : Classifier} {segments : List Segment}
    {rejection : Rejection} (refused : classifier.RefusedFor segments rejection) :
    rejection.marks.Pairwise fun first second => first.1 < second.1 := by
  cases refused with
  | duplicate firstFound secondFound ordered => simpa [Rejection.duplicateElement] using ordered
  | nameless => exact List.pairwise_singleton _ _
  | malformed => exact List.pairwise_singleton _ _
  | unknown => exact List.pairwise_singleton _ _

theorem Classifier.pairwise_marks_of_classify {classifier : Classifier} {tagged : TaggedText}
    {block : Block} {sourcePath : String} {rejection : Rejection}
    (refused : classifier.classify tagged block sourcePath = .error rejection) :
    rejection.marks.Pairwise fun first second => first.1 < second.1 := by
  rcases refusedFor_of_classify refused with refusedFor | rfl
  · exact refusedFor.pairwise_marks
  · exact .nil

namespace Rejection

/-- Labels of tags that are named in order follow each other as the places do. -/
theorem pairwise_tagLabels {rejection : Rejection}
    (ordered : rejection.marks.Pairwise fun first second => first.1 < second.1)
    {places : List Span} (follow : places.Pairwise Span.Precedes) :
    (rejection.tagLabels places).Pairwise fun first second => first.span.Precedes second.span := by
  rw [tagLabels, List.pairwise_filterMap]
  refine ordered.imp fun {first second} lt => ?_
  rintro firstLabel isFirst secondLabel isSecond
  obtain ⟨firstSpan, firstPlace, rfl⟩ := Option.map_eq_some_iff.mp isFirst
  obtain ⟨secondSpan, secondPlace, rfl⟩ := Option.map_eq_some_iff.mp isSecond
  obtain ⟨firstInside, rfl⟩ := List.getElem?_eq_some_iff.mp firstPlace
  obtain ⟨secondInside, rfl⟩ := List.getElem?_eq_some_iff.mp secondPlace
  exact List.pairwise_iff_getElem.mp follow _ _ firstInside secondInside lt

theorem exists_place_of_mem_tagLabels {rejection : Rejection} {places : List Span} {label : Label}
    (member : label ∈ rejection.tagLabels places) : label.span ∈ places := by
  obtain ⟨mark, -, made⟩ := List.mem_filterMap.mp member
  obtain ⟨span, place, rfl⟩ := Option.map_eq_some_iff.mp made
  exact List.mem_of_getElem? place

end Rejection

namespace DocParser

variable {parser : DocParser} {sourcePath : String} {source : List Char} {history : History}
  {block : Block} {diagnostic : Diagnostic}

/-- The labels of a refused block after the first one: they are secondary, lie inside the block and
between characters, and follow each other. -/
theorem exists_secondary_labels (member : block ∈ parser.scanner.scan source) {pattern : Pattern}
    (search : parser.search = pattern.markers)
    (refused : parser.parseBlock sourcePath source history block = .error diagnostic) :
    ∃ others, diagnostic.labels = Rejection.blockLabel block.span :: others ∧
      (∀ label ∈ others, label.primary = false ∧
        (block.span.start ≤ label.span.start ∧ label.span.stop ≤ block.span.stop) ∧
        Text.IsBoundary source label.span.start ∧ Text.IsBoundary source label.span.stop) ∧
      others.Pairwise fun first second => first.span.Precedes second.span := by
  have taken := Block.takenFrom_of_mem_scan member
  obtain ⟨tagged, -, ⟨rejection, classified, rfl⟩ | ⟨record, error, -, -, rfl⟩⟩ :=
    parseBlock_eq_error_iff.mp refused
  · refine ⟨rejection.tagLabels (parser.places source block tagged), ?_, fun label inside => ?_, ?_⟩
    · rw [Rejection.labels_locate, Classifier.labels_eq_nil_of_classify classified, List.nil_append]
    · exact ⟨Rejection.primary_of_mem_tagLabels inside,
        place_inside taken search (Rejection.exists_place_of_mem_tagLabels inside)⟩
    · exact Rejection.pairwise_tagLabels (Classifier.pairwise_marks_of_classify classified)
        (pairwise_places taken search)
  · exact ⟨[], rfl, nofun, .nil⟩

theorem exists_code_of_refused
    (refused : parser.parseBlock sourcePath source history block = .error diagnostic) :
    ∃ code ∈ Code.ofBlocks, diagnostic.code = some code := by
  obtain ⟨tagged, -, ⟨rejection, classified, rfl⟩ | ⟨record, error, -, -, rfl⟩⟩ :=
    parseBlock_eq_error_iff.mp refused
  · rw [Rejection.code_locate]
    exact Classifier.exists_code_of_classify classified
  · exact ⟨error.code, error.code_mem_ofBlocks, rfl⟩

/-- What the refusal of a source says. A builder reports it as one diagnostic. Its code is one of
those of blocks, and it is about the first block that has tags and is refused, for its tags or for
its name, all blocks before it being accepted in turn. Its first label is primary and runs from the
start of the first line of the block to the end of the content of the last. All others are
secondary, lie inside the first, and follow each other. No label reaches past the end of the source
or cuts a character. -/
theorem parse_refusal_labels {config : ParserConfig} {table : TagTable}
    (accepted : ofConfig config table = .ok parser) (sourcePath : String) (source : List Char)
    (refused : parser.parse sourcePath source = .error diagnostic) :
    (∀ documentation, (DocBuilder.parseSource ⟨parser, documentation⟩ sourcePath source).2 =
      .error (.parse [diagnostic] sourcePath source)) ∧
    (∃ code, diagnostic.code = some code ∧
      code.text ∈ ["E100", "E101", "E102", "E103", "E104", "E200", "E201"]) ∧
    ∃ before block after history tagged,
      parser.scanner.scan source = before ++ block :: after ∧
      parser.AcceptsInTurn sourcePath .empty before history ∧
      parser.search.cut? block.text = some tagged ∧
      ((∃ rejection, parser.classifier.classify tagged block sourcePath = .error rejection ∧
          diagnostic = rejection.locate block.span (parser.places source block tagged)) ∨
        ∃ record error, parser.classifier.classify tagged block sourcePath = .ok record ∧
          history.resolve record.declaredName = .error error ∧
          diagnostic = error.diagnostic.addLabel (Rejection.blockLabel block.span)) ∧
      ∃ primary others, diagnostic.labels = primary :: others ∧ primary.primary = true ∧
        primary.span.start = lineStart source block.startLine ∧
        (∃ content, contentAt (splitLines source) block.endLine = some content ∧
          primary.span.stop = lineStart source block.endLine + Text.byteLength content) ∧
        (∀ label ∈ others, label.primary = false ∧ primary.span.start ≤ label.span.start ∧
          label.span.stop ≤ primary.span.stop) ∧
        (∀ label ∈ diagnostic.labels, label.span.stop ≤ Text.byteLength source ∧
          Text.IsBoundary source label.span.start ∧ Text.IsBoundary source label.span.stop) ∧
        others.Pairwise fun first second =>
          first.span.stop ≤ second.span.start ∧ first.span.start < second.span.start := by
  obtain ⟨before, block, after, history, scanned, accepts, reason⟩ := exists_first_refused refused
  obtain ⟨pattern, search⟩ := exists_search_of_ofConfig accepted
  have member : block ∈ parser.scanner.scan source := by
    rw [scanned]
    exact List.mem_append_right _ List.mem_cons_self
  obtain ⟨tagged, cut, cause⟩ := parseBlock_eq_error_iff.mp reason
  obtain ⟨code, isCode, coded⟩ := exists_code_of_refused reason
  obtain ⟨others, labels, secondary, follow⟩ := exists_secondary_labels member search reason
  obtain ⟨start, stop, startBoundary, stopBoundary⟩ := Scanner.span_of_mem_scan member
  refine ⟨fun documentation => DocBuilder.parseSource_eq_error_iff.mpr ⟨diagnostic, refused, rfl⟩,
    ⟨code, coded, ?_⟩, before, block, after, history, tagged, scanned, accepts, cut, cause,
    Rejection.blockLabel block.span, others, labels, rfl, start, stop,
    fun label inside => ⟨(secondary label inside).1, (secondary label inside).2.1⟩, ?_, follow⟩
  · exact Code.text_mem_of_mem_ofBlocks code isCode
  · rw [labels]
    refine List.forall_mem_cons.mpr
      ⟨⟨stopBoundary.le_byteLength, startBoundary, stopBoundary⟩, fun label inside => ?_⟩
    obtain ⟨-, -, first, last⟩ := secondary label inside
    exact ⟨last.le_byteLength, first, last⟩

/-- The second block has two element tags. Its labels count the two bytes of a letter and of the
line ends before them. -/
theorem parse_refusal_labels_standard :
    ofConfig .standard .builtin = .ok standard ∧
    ∃ diagnostic before block after history,
      standard.parse "lib.js"
        "/** @class A */\n// é\r\n/** é\r\n * @class B\r\n * @method b\r\n */\r\n".toList =
          .error diagnostic ∧
      diagnostic.code = some .duplicateElementTag ∧
      diagnostic.labels.map (·.span) =
        [Span.between 23 61, Span.between 34 40, Span.between 47 54] ∧
      standard.scanner.scan
        "/** @class A */\n// é\r\n/** é\r\n * @class B\r\n * @method b\r\n */\r\n".toList =
          before ++ block :: after ∧
      standard.AcceptsInTurn "lib.js" .empty before history ∧
      ∀ label ∈ diagnostic.labels,
        Text.IsBoundary
          "/** @class A */\n// é\r\n/** é\r\n * @class B\r\n * @method b\r\n */\r\n".toList
          label.span.start := by
  have refused : standard.parse "lib.js"
      "/** @class A */\n// é\r\n/** é\r\n * @class B\r\n * @method b\r\n */\r\n".toList =
        .error ((Rejection.duplicateElement 0 "class" 1 "method").locate (Span.between 23 61)
          [Span.between 34 40, Span.between 47 54]) := by
    decide +kernel
  obtain ⟨-, -, before, block, after, history, tagged, scanned, accepts, -, -, primary, others,
    -, -, -, -, -, boundaries, -⟩ := parse_refusal_labels ofConfig_standard "lib.js" _ refused
  exact ⟨ofConfig_standard, _, before, block, after, history, refused, rfl, rfl, scanned, accepts,
    fun label member => (boundaries label member).2.1⟩

end DocParser

end DocComments
