/-
This file proves which places of the source the labels of refused tags are on.

A refusal knows its tags by their numbers in the text of the block. Their places are found by a
second search, in the part of the source that the block covers: if it finds as many markers as the
text has, the labels are on those with the same numbers. So a label is on the right tag exactly if
the two markers agree: that in the source reads like that in the text, and stands where that in the
text comes from. Numbers alone do not give that. What stripping took away may hold markers, and a
tag name that the closing delimiter follows may not be found, or with the delimiter as a part of it.

With the standard tag pattern, the markers are the marked words. If no `@` was taken away, and if
every excerpt that ends inside a marked word is followed by white space, then the marked words of
the text are those of the source, one by one, and every label is on its tag.
-/

import DocComments.Proofs.MarkedWords
import DocComments.Proofs.Refusals
import DocComments.Proofs.TextOrigins

namespace DocComments

/-! ### Markers and what they cover -/

/-- The characters of a text from the start of a marker to the end of the tag name. -/
def Marker.named (marker : Marker) : Range :=
  ⟨marker.whole.start, marker.name.stop⟩

theorem Marker.slice_named_append {marker : Marker} {text : List Char}
    (inside : marker.name.stop ≤ text.length) (more : List Char) :
    marker.named.slice (text ++ more) = marker.named.slice text := by
  simp only [named, Range.slice]
  rw [List.take_append_of_le_length inside]

theorem Marker.slice_named_shift (marker : Marker) (front text : List Char) :
    (marker.shift front.length).named.slice (front ++ text) = marker.named.slice text := by
  simp only [named, shift, Range.slice]
  rw [Nat.add_comm marker.name.stop, Nat.add_comm marker.whole.start,
    List.take_length_add_append, List.drop_length_add_append]

theorem Range.take_append_slice {range : Range} (ordered : range.start ≤ range.stop)
    (text : List Char) : text.take range.start ++ range.slice text = text.take range.stop := by
  have front : text.take range.start = (text.take range.stop).take range.start := by
    rw [List.take_take, Nat.min_eq_left ordered]
  rw [front, slice, List.take_append_drop]

/-- A text around the characters of a range, which are none if the range ends before its start. -/
theorem Range.exists_rest (range : Range) (text : List Char) :
    ∃ rest, text = text.take range.start ++ (range.slice text ++ rest) ∧
      Text.byteLength (text.take range.start) + Text.byteLength (range.slice text) =
        max (Text.byteLength (text.take range.start)) (Text.byteLength (text.take range.stop)) := by
  rcases Nat.lt_or_ge range.stop range.start with reversed | ordered
  · have empty : range.slice text = [] := by
      rw [slice, List.drop_eq_nil_iff, List.length_take]
      omega
    have front : text.take range.stop ++ Range.slice ⟨range.stop, range.start⟩ text =
        text.take range.start :=
      @take_append_slice ⟨range.stop, range.start⟩ (Nat.le_of_lt reversed) text
    refine ⟨text.drop range.start, ?_, ?_⟩
    · rw [empty, List.nil_append, List.take_append_drop]
    · rw [empty, ← front, Text.byteLength_append, Text.byteLength_nil]
      omega
  · have front := take_append_slice ordered text
    refine ⟨text.drop range.stop, ?_, ?_⟩
    · rw [← List.append_assoc, front, List.take_append_drop]
    · rw [← front, Text.byteLength_append]
      omega

/-- The span of a marker covers its characters up to the end of the tag name. -/
theorem Marker.slice?_span (marker : Marker) (before text after : List Char) :
    (marker.span (Text.byteLength before) text).slice? (before ++ (text ++ after)) =
      some (marker.named.slice text) := by
  obtain ⟨rest, parts, size⟩ := marker.named.exists_rest text
  have whole : before ++ (text ++ after) = (before ++ text.take marker.named.start) ++
      (marker.named.slice text ++ (rest ++ after)) := by
    conv_lhs => rw [parts]
    simp only [List.append_assoc]
  rw [whole]
  refine Span.slice?_of_append _ (Text.byteLength_append _ _).symm ?_
  rw [Text.byteLength_append, Nat.add_assoc, size, ← Nat.add_max_add_left]
  rfl

/-- The markers of a text and the tags that are cut out of it go together. -/
theorem getElem?_segmentsOf {text : List Char} {markers : List Marker} {index : Nat}
    {segment : Segment} (found : (segmentsOf text markers)[index]? = some segment) :
    ∃ marker, markers[index]? = some marker ∧ segment.name = marker.name.slice text ∧
      segment.range.start = marker.whole.start := by
  induction markers generalizing index with
  | nil => cases found
  | cons marker markers inductionHypothesis =>
    cases index with
    | zero =>
      cases found
      exact ⟨marker, rfl, rfl, rfl⟩
    | succ index => exact inductionHypothesis found

theorem length_segmentsOf (text : List Char) (markers : List Marker) :
    (segmentsOf text markers).length = markers.length := by
  induction markers with
  | nil => rfl
  | cons marker markers inductionHypothesis =>
    rw [segmentsOf, List.length_cons, inductionHypothesis, List.length_cons]

theorem segments_of_cut? {search : MarkerSearch} {text : List Char} {tagged : TaggedText}
    (cut : search.cut? text = some tagged) :
    tagged.segments = segmentsOf text (search.markers text) := by
  unfold MarkerSearch.cut? at cut
  split at cut
  · cases cut
  · rename_i first markers found
    cases cut
    rw [found]

/-! ### Marked words of excerpts -/

/-- What an excerpt leaves out of a line does not touch marked words: there is no `@` in it, and
white space follows the excerpt if that ends inside a marked word. -/
def Excerpt.LeavesWords (excerpt : Excerpt) (line : List Char) : Prop :=
  '@' ∉ line.take excerpt.skipped ∧ '@' ∉ excerpt.tailOf line ∧
    (markAfter 0 none excerpt.kept = none ∨
      (excerpt.tailOf line).head?.any Text.isWhiteSpace = true)

instance (excerpt : Excerpt) (line : List Char) : Decidable (excerpt.LeavesWords line) :=
  inferInstanceAs (Decidable (_ ∧ _ ∧ (_ ∨ _)))

/-- The marked words of a line are those of the excerpt. -/
theorem markedWords_line {excerpt : Excerpt} {line : List Char} (isOf : excerpt.IsOf line)
    (leaves : excerpt.LeavesWords line) (rest : List Char) :
    markedWords 0 none (line ++ rest) =
      (wordsOf excerpt.kept).map (Marker.shift (line.take excerpt.skipped).length) ++
        (markedWords 0 none rest).map (Marker.shift line.length) := by
  obtain ⟨noneBefore, noneAfter, ended⟩ := leaves
  have endedInSource : markAfter 0 none excerpt.kept = none ∨
      (excerpt.tailOf line ++ rest).head?.any Text.isWhiteSpace = true := by
    refine ended.imp_right fun isSpace => ?_
    cases tail : excerpt.tailOf line with
    | nil =>
      rw [tail] at isSpace
      cases isSpace
    | cons c others =>
      rw [tail] at isSpace
      exact isSpace
  obtain ⟨noWordBefore, noMarkBefore⟩ := markedWords_of_noAt noneBefore 0
  obtain ⟨noWordAfter, noMarkAfter⟩ := markedWords_of_noAt noneAfter excerpt.kept.length
  have count := congrArg List.length isOf.append_eq
  rw [List.length_append, List.length_append] at count
  calc markedWords 0 none (line ++ rest)
      = markedWords 0 none (line.take excerpt.skipped ++
          (excerpt.kept ++ (excerpt.tailOf line ++ rest))) := by
        conv_lhs => rw [← isOf.append_eq]
        rw [List.append_assoc, List.append_assoc]
    _ = (markedWords 0 none (excerpt.kept ++ (excerpt.tailOf line ++ rest))).map
          (Marker.shift (line.take excerpt.skipped).length) := by
        rw [markedWords_append, noWordBefore, noMarkBefore, List.nil_append, Nat.zero_add,
          markedWords_zero_shift]
    _ = (wordsOf excerpt.kept ++
          markedWords (excerpt.kept.length + (excerpt.tailOf line).length) none rest).map
            (Marker.shift (line.take excerpt.skipped).length) := by
        rw [markedWords_eq_wordsOf endedInSource, markedWords_append, noWordAfter, noMarkAfter,
          List.nil_append]
    _ = _ := by
        rw [List.map_append, ← markedWords_shift, Option.map_none, Nat.add_comm, count,
          ← markedWords_zero_shift]

/-- White space follows every excerpt in the text that they make. -/
theorem markedWords_keptLines_cons (excerpt : Excerpt) (excerpts : List Excerpt) :
    markedWords 0 none (Scanner.keptLines (excerpt :: excerpts)) =
      wordsOf excerpt.kept ++ (markedWords 0 none (Scanner.keptLines excerpts)).map
        (Marker.shift (excerpt.kept.length + 1)) := by
  have lineFeed : ('\n' :: Scanner.keptLines excerpts).head?.any Text.isWhiteSpace = true := rfl
  rw [Scanner.keptLines_cons, markedWords_eq_wordsOf (.inr lineFeed), ← markedWords_zero_shift]
  rfl

theorem markAfter_keptLines (excerpts : List Excerpt) :
    markAfter 0 none (Scanner.keptLines excerpts) = none := by
  rcases List.eq_nil_or_concat excerpts with rfl | ⟨front, last, rfl⟩
  · rfl
  · rw [List.concat_eq_append, Scanner.keptLines_concat, ← List.append_assoc, markAfter_lineFeed]

/-- A marked word of the text that excerpts make, and one of their lines: the second reads like the
first, and stands where the first comes from. -/
def SameWord (excerpts : List Excerpt) (lines : List (List Char)) (own found : Marker) : Prop :=
  Excerpt.origin? excerpts lines own.whole.start = some found.whole.start ∧
    own.named.slice (Scanner.keptLines excerpts) = found.named.slice lines.flatten

section

variable {excerpt : Excerpt} {line : List Char} {excerpts : List Excerpt}
  {lines : List (List Char)}

theorem sameWord_of_mem (isOf : excerpt.IsOf line) {word : Marker}
    (member : word ∈ wordsOf excerpt.kept) :
    SameWord (excerpt :: excerpts) (line :: lines) word
      (word.shift (line.take excerpt.skipped).length) := by
  obtain ⟨nonempty, inside⟩ := bounds_of_mem_wordsOf member
  constructor
  · rw [Excerpt.origin?_of_lt (by omega), Marker.shift, isOf.length_take (by omega), Nat.add_comm]
  · have parts : line ++ lines.flatten = line.take excerpt.skipped ++
        (excerpt.kept ++ (excerpt.tailOf line ++ lines.flatten)) := by
      conv_lhs => rw [← isOf.append_eq]
      simp only [List.append_assoc]
    rw [Scanner.keptLines_cons, List.flatten_cons, parts, Marker.slice_named_shift,
      Marker.slice_named_append inside, Marker.slice_named_append inside]

theorem SameWord.cons {own found : Marker} (same : SameWord excerpts lines own found) :
    SameWord (excerpt :: excerpts) (line :: lines) (own.shift (excerpt.kept.length + 1))
      (found.shift line.length) := by
  obtain ⟨origin, reads⟩ := same
  constructor
  · exact Excerpt.origin?_add origin excerpt line
  · have front : excerpt.kept ++ '\n' :: Scanner.keptLines excerpts =
        (excerpt.kept ++ ['\n']) ++ Scanner.keptLines excerpts := by
      rw [List.append_assoc, List.singleton_append]
    have count : excerpt.kept.length + 1 = (excerpt.kept ++ ['\n']).length := by
      rw [List.length_append, List.length_singleton]
    rw [Scanner.keptLines_cons, front, count, Marker.slice_named_shift, reads, List.flatten_cons,
      Marker.slice_named_shift]

/-- The induction goes line by line: the marked words of the first excerpt are found in its line,
and those of the others after it. -/
theorem forall₂_sameWord (isOf : List.Forall₂ Excerpt.IsOf excerpts lines)
    (leaves : List.Forall₂ Excerpt.LeavesWords excerpts lines) :
    List.Forall₂ (SameWord excerpts lines) (markedWords 0 none (Scanner.keptLines excerpts))
      (markedWords 0 none lines.flatten) := by
  induction isOf with
  | nil => exact .nil
  | @cons excerpt line excerpts lines head tail inductionHypothesis =>
    obtain ⟨leavesHead, leavesTail⟩ := List.forall₂_cons.mp leaves
    rw [markedWords_keptLines_cons, List.flatten_cons, markedWords_line head leavesHead]
    refine List.rel_append ?_ ?_
    · rw [List.forall₂_map_right_iff, List.forall₂_same]
      exact fun word member => sameWord_of_mem head member
    · rw [List.forall₂_map_left_iff, List.forall₂_map_right_iff]
      exact (inductionHypothesis leavesTail).imp fun own found same => same.cons

end

/-! ### Markers of a block -/

namespace Block

/-- What a block leaves out of its lines does not touch marked words. -/
def LeavesWords (block : Block) (scanner : Scanner) (source : List Char) : Prop :=
  List.Forall₂ Excerpt.LeavesWords (block.excerpts scanner source) (block.coveredLines source)

instance (block : Block) (scanner : Scanner) (source : List Char) :
    Decidable (block.LeavesWords scanner source) :=
  inferInstanceAs (Decidable (List.Forall₂ _ _ _))

/-- A marker of the text of a block is marked at a span of the source: the span starts where the
marker comes from, and what it covers reads like the marker up to the end of the tag name. -/
structure MarkedAt (block : Block) (scanner : Scanner) (source : List Char) (own : Marker)
    (span : Span) : Prop where
  starts : block.origin? scanner source own.whole.start = some span.start
  reads : span.slice? source = some (own.named.slice block.text)

/-- A marker of the text of a block agrees with one of the part of the source that it covers. -/
structure SameMarker (block : Block) (scanner : Scanner) (source : List Char)
    (own found : Marker) : Prop where
  starts : block.origin? scanner source own.whole.start =
    some (block.span.start + Text.byteLength ((block.covered source).take found.whole.start))
  reads : found.named.slice (block.covered source) = own.named.slice block.text

namespace TakenFrom

variable {block : Block} {scanner : Scanner} {source : List Char}

theorem slice?_eq (taken : block.TakenFrom scanner source) :
    block.span.slice? source = some (block.covered source) := by
  obtain ⟨before, after, around, start, stop⟩ := taken.covers
  conv_lhs => rw [around]
  exact Span.slice?_of_append after start stop

theorem markedAt_span_iff (taken : block.TakenFrom scanner source) {own found : Marker} :
    block.MarkedAt scanner source own (found.span block.span.start (block.covered source)) ↔
      block.SameMarker scanner source own found := by
  obtain ⟨before, after, around, start, -⟩ := taken.covers
  have covers : (found.span block.span.start (block.covered source)).slice? source =
      some (found.named.slice (block.covered source)) := by
    have covers := found.slice?_span before (block.covered source) after
    rwa [← around, ← start] at covers
  constructor
  · rintro ⟨starts, reads⟩
    exact ⟨starts, Option.some.inj (covers.symm.trans reads)⟩
  · rintro ⟨starts, reads⟩
    exact ⟨starts, covers.trans (congrArg some reads)⟩

/-- The text of a block is what its excerpts make, but for a last line feed that marks nothing. -/
theorem markedWords_text (taken : block.TakenFrom scanner source) :
    ∃ more, Scanner.keptLines (block.excerpts scanner source) = block.text ++ more ∧
      markedWords 0 none (Scanner.keptLines (block.excerpts scanner source)) =
        markedWords 0 none block.text := by
  obtain ⟨whole, last, excerpts, text⟩ := taken.text
  rw [excerpts, Scanner.keptLines_concat, text, Scanner.closingText]
  split
  · rename_i empty
    rw [List.isEmpty_iff.mp empty, List.nil_append, List.append_nil]
    exact ⟨['\n'], rfl, by rw [markedWords_append, markAfter_keptLines]; exact List.append_nil _⟩
  · exact ⟨[], (List.append_nil _).symm, rfl⟩

/-- If a block leaves marked words alone, those of its text are those of the source. -/
theorem forall₂_sameMarker (taken : block.TakenFrom scanner source)
    (leaves : block.LeavesWords scanner source) :
    List.Forall₂ (block.SameMarker scanner source) (markedWords 0 none block.text)
      (markedWords 0 none (block.covered source)) := by
  obtain ⟨more, text, words⟩ := taken.markedWords_text
  have same := forall₂_sameWord taken.isOf leaves
  rw [words, List.forall₂_iff_zip] at same
  obtain ⟨count, same⟩ := same
  rw [List.forall₂_iff_zip]
  refine ⟨count, fun {own found} member => ?_⟩
  obtain ⟨origin, reads⟩ := same member
  have noneEarlier : ∀ place ∈ (none : Option Nat), place < 0 := nofun
  have inside := (bounds_of_mem_markedWords noneEarlier (List.of_mem_zip member).1).2
  constructor
  · rw [origin?, origin]
    rfl
  · rw [text, Marker.slice_named_append (by omega)] at reads
    exact reads.symm

end TakenFrom

end Block

/-! ### Labels of refused tags -/

theorem Classifier.RefusedFor.exists_segment {classifier : Classifier} {segments : List Segment}
    {rejection : Rejection} (refused : classifier.RefusedFor segments rejection)
    {mark : Nat × String} (member : mark ∈ rejection.marks) :
    ∃ segment, segments[mark.1]? = some segment := by
  cases refused with
  | duplicate firstFound secondFound =>
    rcases List.mem_cons.mp member with rfl | rest
    · exact ⟨_, firstFound⟩
    · rw [List.mem_singleton.mp rest]
      exact ⟨_, secondFound⟩
  | nameless found =>
    rw [List.mem_singleton.mp member]
    exact ⟨_, found⟩
  | malformed found =>
    rw [List.mem_singleton.mp member]
    exact ⟨_, found⟩
  | unknown found =>
    rw [List.mem_singleton.mp member]
    exact ⟨_, found⟩

/-- The codes of refusals that are about a tag. -/
def Code.ofTags : List Code :=
  [.duplicateElementTag, .missingElementName, .unknownTag, .malformedValue]

theorem PathError.code_notMem_ofTags (error : PathError) : error.code ∉ Code.ofTags := by
  cases error with
  | invalid name => exact (by decide : Code.invalidElementPath ∉ Code.ofTags)
  | noParent name depth available => exact (by decide : Code.noParentElement ∉ Code.ofTags)

namespace DocParser

/-- A refusal with one of these codes is about tags of the block. -/
theorem exists_refusedFor {parser : DocParser} {sourcePath : String} {source : List Char}
    {history : History} {block : Block} {diagnostic : Diagnostic}
    (refused : parser.parseBlock sourcePath source history block = .error diagnostic)
    {code : Code} (coded : diagnostic.code = some code) (ofTags : code ∈ Code.ofTags) :
    ∃ tagged rejection, parser.search.cut? block.text = some tagged ∧
      parser.classifier.RefusedFor tagged.segments rejection ∧
      diagnostic.labels = Rejection.blockLabel block.span ::
        rejection.tagLabels (parser.places source block tagged) := by
  obtain ⟨tagged, cut, ⟨rejection, classified, rfl⟩ | ⟨record, error, -, -, rfl⟩⟩ :=
    parseBlock_eq_error_iff.mp refused
  · refine ⟨tagged, rejection, cut, ?_, ?_⟩
    · refine (Classifier.refusedFor_of_classify classified).resolve_right ?_
      rintro rfl
      rw [Rejection.code_locate] at coded
      cases coded
      revert ofTags
      decide
    · rw [Rejection.labels_locate, Classifier.labels_eq_nil_of_classify classified,
        List.nil_append]
  · cases coded
    exact absurd ofTags error.code_notMem_ofTags

variable {parser : DocParser} {source : List Char} {block : Block} {tagged : TaggedText}

theorem spans_eq (taken : block.TakenFrom parser.scanner source) :
    parser.search.spans source block.span =
      (parser.search.markers (block.covered source)).map
        (Marker.span block.span.start (block.covered source)) := by
  rw [MarkerSearch.spans, taken.slice?_eq]

theorem length_segments_of_cut? (cut : parser.search.cut? block.text = some tagged) :
    tagged.segments.length = (parser.search.markers block.text).length := by
  rw [segments_of_cut? cut, length_segmentsOf]

theorem places_of_length_eq (taken : block.TakenFrom parser.scanner source)
    (cut : parser.search.cut? block.text = some tagged)
    (count : (parser.search.markers block.text).length =
      (parser.search.markers (block.covered source)).length) :
    parser.places source block tagged = (parser.search.markers (block.covered source)).map
      (Marker.span block.span.start (block.covered source)) := by
  simp only [places]
  rw [spans_eq taken, List.length_map, length_segments_of_cut? cut, count,
    if_pos (beq_self_eq_true _)]

/-- A tag has no place but that of the marker with its number in the source. -/
theorem exists_marker_of_place (taken : block.TakenFrom parser.scanner source) {index : Nat}
    {span : Span} (placed : (parser.places source block tagged)[index]? = some span) :
    ∃ found, (parser.search.markers (block.covered source))[index]? = some found ∧
      span = found.span block.span.start (block.covered source) := by
  simp only [places] at placed
  split at placed
  · rw [spans_eq taken, List.getElem?_map] at placed
    obtain ⟨found, inSource, rfl⟩ := Option.map_eq_some_iff.mp placed
    exact ⟨found, inSource, rfl⟩
  · cases placed

theorem search_of_ofConfig {config : ParserConfig} {table : TagTable}
    (accepted : ofConfig config table = .ok parser)
    (standard : config.tagPattern = ParserConfig.standard.tagPattern) :
    parser.search = Pattern.tagWord.markers := by
  obtain ⟨patterns, -, -, tag, rfl⟩ := exists_patterns_of_ofConfig accepted
  rw [standard, Patterns.readSetting, Pattern.read?_standard] at tag
  exact congrArg Pattern.markers (Except.ok.inj tag).symm

/-- With the standard tag pattern, a block that leaves marked words alone has a place for every
tag, and the tag is marked there. -/
theorem exists_place (taken : block.TakenFrom parser.scanner source)
    (cut : parser.search.cut? block.text = some tagged)
    (search : parser.search = Pattern.tagWord.markers)
    (leaves : block.LeavesWords parser.scanner source) {index : Nat} {own : Marker}
    (inText : (parser.search.markers block.text)[index]? = some own) :
    ∃ span, (parser.places source block tagged)[index]? = some span ∧
      block.MarkedAt parser.scanner source own span := by
  have same := taken.forall₂_sameMarker leaves
  rw [← Pattern.markers_tagWord, ← Pattern.markers_tagWord, ← search] at same
  obtain ⟨within, rfl⟩ := List.getElem?_eq_some_iff.mp inText
  have inSource : index < (parser.search.markers (block.covered source)).length :=
    same.length_eq ▸ within
  refine ⟨((parser.search.markers (block.covered source))[index]).span block.span.start
    (block.covered source), ?_, ?_⟩
  · rw [places_of_length_eq taken cut same.length_eq, List.getElem?_map,
      List.getElem?_eq_getElem inSource, Option.map_some]
  · exact taken.markedAt_span_iff.mpr (same.get within inSource)

/-- Which places of the source the labels of refused tags are on. After the label of the block,
there is one for every tag that the refusal is about and that has a place. It is on its tag if and
only if the marker with the number of the tag in the source agrees with that in the text; and where
the characters of the text come from, the source has them. With the standard tag pattern, and if the
block leaves marked words alone, every tag that the refusal is about has a label, and this is on the
tag. -/
theorem labels_on_tags {config : ParserConfig} {table : TagTable} {parser : DocParser}
    (accepted : ofConfig config table = .ok parser) (sourcePath : String) (source : List Char)
    {diagnostic : Diagnostic} (refused : parser.parse sourcePath source = .error diagnostic)
    {code : Code} (coded : diagnostic.code = some code) (ofTags : code ∈ Code.ofTags) :
    ∃ block tagged rejection,
      parser.RefusedAt sourcePath source block diagnostic ∧
      parser.search.cut? block.text = some tagged ∧
      parser.classifier.RefusedFor tagged.segments rejection ∧
      diagnostic.labels = Rejection.blockLabel block.span ::
        rejection.tagLabels (parser.places source block tagged) ∧
      (∀ position place, block.origin? parser.scanner source position = some place →
        ∃ c, block.text[position]? = some c ∧ Text.HasAt source place c) ∧
      ∀ mark ∈ rejection.marks, ∃ segment own,
        tagged.segments[mark.1]? = some segment ∧
        (parser.search.markers block.text)[mark.1]? = some own ∧
        segment.name = own.name.slice block.text ∧ segment.range.start = own.whole.start ∧
        (∀ span, (parser.places source block tagged)[mark.1]? = some span →
          ∃ found, (parser.search.markers (block.covered source))[mark.1]? = some found ∧
            (block.MarkedAt parser.scanner source own span ↔
              block.SameMarker parser.scanner source own found)) ∧
        (config.tagPattern = ParserConfig.standard.tagPattern →
          block.LeavesWords parser.scanner source →
          ∃ span, (parser.places source block tagged)[mark.1]? = some span ∧
            block.MarkedAt parser.scanner source own span) := by
  obtain ⟨block, history, refusedAt, refusedBlock⟩ := exists_refusedAt refused
  obtain ⟨tagged, rejection, cut, refusedFor, labels⟩ :=
    exists_refusedFor refusedBlock coded ofTags
  have taken := Block.takenFrom_of_mem_scan refusedAt.mem_scan
  refine ⟨block, tagged, rejection, refusedAt, cut, refusedFor, labels,
    fun position place => taken.of_origin?, fun mark member => ?_⟩
  obtain ⟨segment, isTag⟩ := refusedFor.exists_segment member
  obtain ⟨own, inText, name, start⟩ := getElem?_segmentsOf (segments_of_cut? cut ▸ isTag)
  refine ⟨segment, own, isTag, inText, name, start, fun span placed => ?_,
    fun standard leaves => ?_⟩
  · obtain ⟨found, inSource, rfl⟩ := exists_marker_of_place taken placed
    exact ⟨found, inSource, taken.markedAt_span_iff⟩
  · exact exists_place taken cut (search_of_ofConfig accepted standard) leaves inText

/-- Both element tags of a block with two are labelled where they stand. -/
theorem labels_on_tags_standard :
    ofConfig .standard .builtin = .ok standard ∧
    ∃ diagnostic block tagged rejection,
      standard.parse "lib.js" "/**\n * @class A\n * @method b\n */\n".toList = .error diagnostic ∧
      diagnostic.code = some .duplicateElementTag ∧
      block.LeavesWords standard.scanner "/**\n * @class A\n * @method b\n */\n".toList ∧
      standard.classifier.RefusedFor tagged.segments rejection ∧
      ∀ mark ∈ rejection.marks, ∃ own span,
        (standard.search.markers block.text)[mark.1]? = some own ∧
        (standard.places "/**\n * @class A\n * @method b\n */\n".toList block tagged)[mark.1]? =
          some span ∧
        block.MarkedAt standard.scanner "/**\n * @class A\n * @method b\n */\n".toList own
          span := by
  have refused : standard.parse "lib.js" "/**\n * @class A\n * @method b\n */\n".toList =
      .error ((Rejection.duplicateElement 0 "class" 1 "method").locate (Span.between 0 32)
        [Span.between 7 13, Span.between 19 26]) := by
    decide +kernel
  have scanned : standard.scanner.scan "/**\n * @class A\n * @method b\n */\n".toList =
      [⟨1, 4, Span.between 0 32, "\n@class A\n@method b\n".toList⟩] := by
    decide +kernel
  have leaves : Block.LeavesWords ⟨1, 4, Span.between 0 32, "\n@class A\n@method b\n".toList⟩
      standard.scanner "/**\n * @class A\n * @method b\n */\n".toList := by
    decide +kernel
  obtain ⟨block, tagged, rejection, refusedAt, -, refusedFor, -, -, places⟩ :=
    labels_on_tags ofConfig_standard "lib.js" _ refused rfl (by decide)
  have only := refusedAt.mem_scan
  rw [scanned, List.mem_singleton] at only
  subst only
  refine ⟨ofConfig_standard, _, _, tagged, rejection, refused, rfl, leaves, refusedFor,
    fun mark member => ?_⟩
  obtain ⟨segment, own, -, inText, -, -, -, placed⟩ := places mark member
  obtain ⟨span, place, marked⟩ := placed rfl leaves
  exact ⟨own, span, inText, place, marked⟩

/-- A label is not always on its tag. In the last line the delimiter follows the name, so the source
has no marker there; but it has one more in the second line, where three characters were taken
away. The label of the second tag is on the first. -/
theorem labels_on_other_tags :
    ¬ ∀ (config : ParserConfig) (table : TagTable) (parser : DocParser) (sourcePath : String)
        (source : List Char) (block : Block) (diagnostic : Diagnostic) (tagged : TaggedText)
        (rejection : Rejection),
      ofConfig config table = .ok parser →
      parser.RefusedAt sourcePath source block diagnostic →
      parser.search.cut? block.text = some tagged →
      parser.classifier.classify tagged block sourcePath = .error rejection →
      diagnostic = rejection.locate block.span (parser.places source block tagged) →
      ∀ mark ∈ rejection.marks, ∀ span,
        (parser.places source block tagged)[mark.1]? = some span →
        ∀ own, (parser.search.markers block.text)[mark.1]? = some own →
          block.MarkedAt parser.scanner source own span := by
  intro always
  have marked := always .standard .builtin standard "lib.js"
    "/**\n@x @class A\n   @bogus*/\n".toList
    ⟨1, 3, Span.between 0 27, "\n@class A\n@bogus\n".toList⟩
    ((Rejection.unknownTag 1 "bogus").locate (Span.between 0 27)
      [Span.between 4 6, Span.between 7 13])
    ⟨[], [⟨"class".toList, "A\n".toList, ⟨1, 10⟩⟩, ⟨"bogus".toList, [], ⟨10, 17⟩⟩]⟩
    (.unknownTag 1 "bogus") ofConfig_standard
    ⟨[], [], [], by decide +kernel, by decide +kernel, by decide +kernel⟩ (by decide +kernel)
    (by decide +kernel) (by decide +kernel) (1, "unknown tag") List.mem_cons_self
    (Span.between 7 13) (by decide +kernel) ⟨⟨10, 17⟩, ⟨11, 16⟩⟩ (by decide +kernel)
  exact absurd marked.starts (by decide +kernel)

end DocParser

end DocComments
