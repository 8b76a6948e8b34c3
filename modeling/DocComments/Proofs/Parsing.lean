/-
This file takes the parse of a source apart into what its blocks do, one after the other.

A block without tags does nothing; any other is refused, or declares one element and changes the
history of names. What it does depends on the source only for the places of a refusal, on its
lines only for those of its element, and on what went before only through the history.
-/

import DocComments.Proofs.DeclaredNames
import DocComments.Proofs.Scanning
import DocComments.Source.Parser
import DocComments.TagType.Builtin

namespace DocComments

namespace DocParser

/-! ### Blocks in a row -/

/-- What one block does: the element that it declares, if it has tags, and the history after
it. -/
def parseBlock (parser : DocParser) (sourcePath : String) (source : List Char)
    (history : History) (block : Block) :
    Except Diagnostic (Option ResolvedElement × History) :=
  match parser.search.cut? block.text with
  | none => .ok (none, history)
  | some tagged =>
    match parser.recordOf sourcePath source block tagged with
    | .error diagnostic => .error diagnostic
    | .ok record =>
      match history.resolve record.declaredName with
      | .error error => .error (error.diagnostic.addLabel (Rejection.blockLabel block.span))
      | .ok (path, later) => .ok (some ⟨path, record⟩, later)

theorem recordOf_eq_ok_iff {parser : DocParser} {sourcePath : String} {source : List Char}
    {block : Block} {tagged : TaggedText} {record : ElementRecord} :
    parser.recordOf sourcePath source block tagged = .ok record ↔
      parser.classifier.classify tagged block sourcePath = .ok record := by
  rw [recordOf]
  cases parser.classifier.classify tagged block sourcePath with
  | ok own => simp only [Except.ok.injEq]
  | error rejection => exact iff_of_false nofun nofun

/-- A block that is not refused has no tags and changes nothing, or it is classified and its name
resolved. -/
theorem parseBlock_eq_ok_iff {parser : DocParser} {sourcePath : String} {source : List Char}
    {history later : History} {block : Block} {element : Option ResolvedElement} :
    parser.parseBlock sourcePath source history block = .ok (element, later) ↔
      (parser.search.cut? block.text = none ∧ element = none ∧ later = history) ∨
      ∃ tagged record path, parser.search.cut? block.text = some tagged ∧
        parser.classifier.classify tagged block sourcePath = .ok record ∧
        history.resolve record.declaredName = .ok (path, later) ∧
        element = some ⟨path, record⟩ := by
  rw [parseBlock]
  constructor
  · intro parsed
    cases cut : parser.search.cut? block.text with
    | none =>
      rw [cut] at parsed
      cases parsed
      exact .inl ⟨rfl, rfl, rfl⟩
    | some tagged =>
      rw [cut] at parsed
      simp only at parsed
      cases made : parser.recordOf sourcePath source block tagged with
      | error diagnostic =>
        rw [made] at parsed
        cases parsed
      | ok record =>
        rw [made] at parsed
        simp only at parsed
        cases resolved : history.resolve record.declaredName with
        | error error =>
          rw [resolved] at parsed
          cases parsed
        | ok result =>
          rw [resolved] at parsed
          cases parsed
          exact .inr ⟨tagged, record, result.1, rfl, recordOf_eq_ok_iff.mp made, resolved, rfl⟩
  · rintro (⟨untagged, rfl, rfl⟩ | ⟨tagged, record, path, cut, classified, resolved, rfl⟩)
    · rw [untagged]
    · rw [cut]
      simp only
      rw [recordOf_eq_ok_iff.mpr classified]
      simp only
      rw [resolved]

theorem parseBlocks_cons (parser : DocParser) (sourcePath : String) (source : List Char)
    (history : History) (block : Block) (blocks : List Block) :
    parser.parseBlocks sourcePath source history (block :: blocks) =
      match parser.parseBlock sourcePath source history block with
      | .error diagnostic => .error diagnostic
      | .ok (element, later) =>
        (parser.parseBlocks sourcePath source later blocks).map (element.toList ++ ·) := by
  rw [parseBlocks, parseBlock]
  cases parser.search.cut? block.text with
  | none =>
    simp only
    cases parser.parseBlocks sourcePath source history blocks with
    | error => rfl
    | ok => rfl
  | some tagged =>
    simp only
    cases parser.recordOf sourcePath source block tagged with
    | error => rfl
    | ok record =>
      simp only
      cases history.resolve record.declaredName with
      | error => rfl
      | ok resolved => rfl

theorem parseBlocks_cons_eq_ok_iff {parser : DocParser} {sourcePath : String}
    {source : List Char} {history : History} {block : Block} {blocks : List Block}
    {elements : List ResolvedElement} :
    parser.parseBlocks sourcePath source history (block :: blocks) = .ok elements ↔
      ∃ element later others,
        parser.parseBlock sourcePath source history block = .ok (element, later) ∧
        parser.parseBlocks sourcePath source later blocks = .ok others ∧
        elements = element.toList ++ others := by
  constructor
  · intro parsed
    rw [parseBlocks_cons] at parsed
    cases step : parser.parseBlock sourcePath source history block with
    | error diagnostic =>
      rw [step] at parsed
      cases parsed
    | ok result =>
      rw [step] at parsed
      simp only at parsed
      cases rest : parser.parseBlocks sourcePath source result.2 blocks with
      | error diagnostic =>
        rw [rest] at parsed
        cases parsed
      | ok others =>
        rw [rest] at parsed
        cases parsed
        exact ⟨result.1, result.2, others, rfl, rest, rfl⟩
  · rintro ⟨element, later, others, step, rest, rfl⟩
    rw [parseBlocks_cons, step]
    simp only
    rw [rest]
    rfl

theorem parseBlocks_append_of_ok {parser : DocParser} {sourcePath : String}
    {source : List Char} {history : History} {first : List Block}
    {elements : List ResolvedElement}
    (parsed : parser.parseBlocks sourcePath source history first = .ok elements) :
    ∃ later, ∀ second others,
      parser.parseBlocks sourcePath source later second = .ok others →
      parser.parseBlocks sourcePath source history (first ++ second) =
        .ok (elements ++ others) := by
  induction first generalizing history elements with
  | nil =>
    cases parsed
    exact ⟨history, fun second others parsedSecond => parsedSecond⟩
  | cons block blocks inductionHypothesis =>
    obtain ⟨element, later, rest, step, parsedRest, rfl⟩ := parseBlocks_cons_eq_ok_iff.mp parsed
    obtain ⟨last, goesOn⟩ := inductionHypothesis parsedRest
    refine ⟨last, fun second others parsedSecond => ?_⟩
    rw [List.cons_append, parseBlocks_cons_eq_ok_iff]
    exact ⟨element, later, rest ++ others, step, goesOn second others parsedSecond,
      List.append_assoc _ _ _⟩

/-- A refused block refuses all that follows. -/
theorem parseBlocks_append_of_error {parser : DocParser} {sourcePath : String}
    {source : List Char} {history : History} {first : List Block} {diagnostic : Diagnostic}
    (refused : parser.parseBlocks sourcePath source history first = .error diagnostic)
    (second : List Block) :
    parser.parseBlocks sourcePath source history (first ++ second) = .error diagnostic := by
  induction first generalizing history with
  | nil => cases refused
  | cons block blocks inductionHypothesis =>
    rw [parseBlocks_cons] at refused
    rw [List.cons_append, parseBlocks_cons]
    cases step : parser.parseBlock sourcePath source history block with
    | error own =>
      rw [step] at refused
      exact refused
    | ok parsed =>
      rw [step] at refused
      simp only at refused ⊢
      cases rest : parser.parseBlocks sourcePath source parsed.2 blocks with
      | ok elements =>
        rw [rest] at refused
        cases refused
      | error own =>
        rw [rest] at refused
        cases refused
        rw [inductionHypothesis rest]
        rfl

/-! ### The same blocks in a longer source -/

/-- What a block does depends on the source only as far as the block goes. -/
theorem parseBlock_append (parser : DocParser) (sourcePath : String) {source : List Char}
    {block : Block} (inside : block.span.stop ≤ Text.byteLength source) (more : List Char)
    (history : History) :
    parser.parseBlock sourcePath (source ++ more) history block =
      parser.parseBlock sourcePath source history block := by
  have samePlaces (tagged : TaggedText) :
      parser.places (source ++ more) block tagged = parser.places source block tagged := by
    rw [places, places, MarkerSearch.spans, MarkerSearch.spans, Span.slice?_append inside]
  have sameRecord (tagged : TaggedText) :
      parser.recordOf sourcePath (source ++ more) block tagged =
        parser.recordOf sourcePath source block tagged := by
    rw [recordOf, recordOf, samePlaces]
  simp only [parseBlock, sameRecord]

theorem parseBlocks_append_source (parser : DocParser) (sourcePath : String)
    {source : List Char} {blocks : List Block}
    (inside : ∀ block ∈ blocks, block.span.stop ≤ Text.byteLength source) (more : List Char)
    (history : History) :
    parser.parseBlocks sourcePath (source ++ more) history blocks =
      parser.parseBlocks sourcePath source history blocks := by
  induction blocks generalizing history with
  | nil => rfl
  | cons block blocks inductionHypothesis =>
    have insideRest : ∀ block ∈ blocks, block.span.stop ≤ Text.byteLength source :=
      fun other member => inside other (List.mem_cons_of_mem _ member)
    rw [parseBlocks_cons, parseBlocks_cons,
      parser.parseBlock_append sourcePath (inside block List.mem_cons_self)]
    simp only [inductionHypothesis insideRest]

/-! ### The same blocks after other declarations -/

/-- A block that is parsed at the start of a source is parsed anywhere: it has no tags, or it
declares an absolute name. -/
theorem parseBlock_of_empty {parser : DocParser} {sourcePath : String} {source : List Char}
    {block : Block} {element : Option ResolvedElement} {later : History}
    (parsed : parser.parseBlock sourcePath source .empty block = .ok (element, later)) :
    (element = none ∧ later = .empty ∧
      ∀ history, parser.parseBlock sourcePath source history block = .ok (none, history)) ∨
    (∀ history, parser.parseBlock sourcePath source history block = .ok (element, later)) := by
  rcases parseBlock_eq_ok_iff.mp parsed with
    ⟨untagged, rfl, rfl⟩ | ⟨tagged, record, path, cut, classified, resolved, rfl⟩
  · exact .inl ⟨rfl, rfl, fun history =>
      parseBlock_eq_ok_iff.mpr (.inl ⟨untagged, rfl, rfl⟩)⟩
  · exact .inr fun history => parseBlock_eq_ok_iff.mpr (.inr ⟨tagged, record, path, cut,
      classified, History.resolve_of_empty resolved history, rfl⟩)

theorem parseBlocks_of_empty {parser : DocParser} {sourcePath : String} {source : List Char}
    {blocks : List Block} {elements : List ResolvedElement}
    (parsed : parser.parseBlocks sourcePath source .empty blocks = .ok elements)
    (history : History) :
    parser.parseBlocks sourcePath source history blocks = .ok elements := by
  induction blocks generalizing elements with
  | nil => exact parsed
  | cons block blocks inductionHypothesis =>
    obtain ⟨element, later, others, step, rest, rfl⟩ := parseBlocks_cons_eq_ok_iff.mp parsed
    rw [parseBlocks_cons_eq_ok_iff]
    rcases parseBlock_of_empty step with ⟨rfl, rfl, untagged⟩ | anywhere
    · exact ⟨none, history, others, untagged history, inductionHypothesis rest, rfl⟩
    · exact ⟨element, later, others, anywhere history, rest, rfl⟩

end DocParser

/-! ### The same blocks further down -/

/-- The record of a block further down. -/
def ElementRecord.shiftLines (lines : Nat) (record : ElementRecord) : ElementRecord :=
  { record with
    declaration :=
      { record.declaration with
        startLine := record.declaration.startLine + lines
        endLine := record.declaration.endLine + lines } }

/-- An element declared further down. -/
def ResolvedElement.shiftLines (lines : Nat) (element : ResolvedElement) : ResolvedElement :=
  { element with record := element.record.shiftLines lines }

theorem Classifier.classify_shift (classifier : Classifier) (tagged : TaggedText)
    (lines bytes : Nat) (block : Block) (sourcePath : String) :
    classifier.classify tagged (block.shift lines bytes) sourcePath =
      (classifier.classify tagged block sourcePath).map (ElementRecord.shiftLines lines) := by
  rw [classify, classify]
  rcases classifier.collect 0 none .empty tagged.segments with rejection | ⟨element, attributes⟩
  · rfl
  · cases element with
    | none => rfl
    | some => rfl

namespace DocParser

theorem parseBlock_shift_of_ok {parser : DocParser} {sourcePath : String} {source : List Char}
    {history later : History} {block : Block} {element : Option ResolvedElement}
    (parsed : parser.parseBlock sourcePath source history block = .ok (element, later))
    (other : List Char) (lines bytes : Nat) :
    parser.parseBlock sourcePath other history (block.shift lines bytes) =
      .ok (element.map (ResolvedElement.shiftLines lines), later) := by
  rcases parseBlock_eq_ok_iff.mp parsed with
    ⟨untagged, rfl, rfl⟩ | ⟨tagged, record, path, cut, classified, resolved, rfl⟩
  · exact parseBlock_eq_ok_iff.mpr (.inl ⟨untagged, rfl, rfl⟩)
  · have shifted : parser.classifier.classify tagged (block.shift lines bytes) sourcePath =
        .ok (record.shiftLines lines) := by
      rw [Classifier.classify_shift, classified]
      rfl
    exact parseBlock_eq_ok_iff.mpr
      (.inr ⟨tagged, record.shiftLines lines, path, cut, shifted, resolved, rfl⟩)

/-- Blocks that are parsed declare the same elements further down in any other source. -/
theorem parseBlocks_shift_of_ok {parser : DocParser} {sourcePath : String} {source : List Char}
    {history : History} {blocks : List Block} {elements : List ResolvedElement}
    (parsed : parser.parseBlocks sourcePath source history blocks = .ok elements)
    (other : List Char) (lines bytes : Nat) :
    parser.parseBlocks sourcePath other history (blocks.map (Block.shift lines bytes)) =
      .ok (elements.map (ResolvedElement.shiftLines lines)) := by
  induction blocks generalizing history elements with
  | nil =>
    cases parsed
    rfl
  | cons block blocks inductionHypothesis =>
    obtain ⟨element, later, others, step, rest, rfl⟩ := parseBlocks_cons_eq_ok_iff.mp parsed
    rw [List.map_cons, parseBlocks_cons_eq_ok_iff]
    refine ⟨_, later, _, parseBlock_shift_of_ok step other lines bytes,
      inductionHypothesis rest, ?_⟩
    rw [List.map_append, Option.toList_map]

/-! ### Configured parsers -/

/-- A configuration is accepted if its three patterns can be read, and gives the parser that is made
of them and of its other settings. -/
theorem exists_patterns_of_ofConfig {config : ParserConfig} {table : TagTable}
    {parser : DocParser} (accepted : ofConfig config table = .ok parser) :
    ∃ patterns : Patterns,
      Patterns.readSetting "open_pattern" (anchoredPattern config.openPattern) =
        .ok patterns.opening ∧
      Patterns.readSetting "close_pattern" config.closePattern = .ok patterns.closing ∧
      Patterns.readSetting "tag_pattern" config.tagPattern = .ok patterns.tag ∧
      parser =
        ⟨⟨patterns.opening.inLine, patterns.closing.inLine, config.linePrefix.map String.toList⟩,
          patterns.tag.markers,
          ⟨table, config.ignoreInvalidTags, ⟨config.newlineReplacement.map String.toList⟩⟩⟩ := by
  unfold ofConfig Patterns.ofConfig at accepted
  cases opening : Patterns.readSetting "open_pattern" (anchoredPattern config.openPattern) with
  | error diagnostic =>
    rw [opening] at accepted
    cases accepted
  | ok openPattern =>
    cases closing : Patterns.readSetting "close_pattern" config.closePattern with
    | error diagnostic =>
      rw [opening, closing] at accepted
      cases accepted
    | ok closePattern =>
      cases tag : Patterns.readSetting "tag_pattern" config.tagPattern with
      | error diagnostic =>
        rw [opening, closing, tag] at accepted
        cases accepted
      | ok tagPattern =>
        rw [opening, closing, tag] at accepted
        simp only [bind, Except.bind] at accepted
        by_cases named : tagPattern.hasGroup tagGroup = true
        · rw [if_pos named] at accepted
          cases accepted
          exact ⟨⟨openPattern, closePattern, tagPattern⟩, rfl, rfl, rfl, rfl⟩
        · rw [if_neg named] at accepted
          cases accepted

/-! ### The standard parser -/

theorem ofConfig_eq_ok_get {config : ParserConfig} {table : TagTable}
    (accepted : (ofConfig config table).toOption.isSome = true) :
    ofConfig config table = .ok ((ofConfig config table).toOption.get accepted) := by
  revert accepted
  cases ofConfig config table with
  | error diagnostic => exact nofun
  | ok parser => exact fun _ => rfl

theorem isSome_ofConfig_standard : (ofConfig .standard .builtin).toOption.isSome = true := by
  decide +kernel

/-- The parser of the standard settings and the built-in tag types. -/
def standard : DocParser :=
  (ofConfig .standard .builtin).toOption.get isSome_ofConfig_standard

theorem ofConfig_standard : ofConfig .standard .builtin = .ok standard :=
  ofConfig_eq_ok_get isSome_ofConfig_standard

/-! ### Sources in a row -/

/-- A source may be continued after whole lines. If these leave no block open and both parts are
parsed, the whole is parsed too, and declares the elements of the first part and then those of
the second, with lines counted from the start of the whole. If the first part is refused, the
whole is refused in the same way, whatever follows. -/
theorem parse_continued (parser : DocParser) (sourcePath : String) {first : List Char}
    (whole : WholeLines first) (second : List Char) :
    (∀ elements others, parser.scanner.leavesOpen first = false →
      parser.parse sourcePath first = .ok elements →
      parser.parse sourcePath second = .ok others →
      parser.parse sourcePath (first ++ second) =
        .ok (elements ++ others.map (ResolvedElement.shiftLines (splitLines first).length))) ∧
    (∀ diagnostic, parser.parse sourcePath first = .error diagnostic →
      parser.parse sourcePath (first ++ second) = .error diagnostic) := by
  have inside : ∀ block ∈ parser.scanner.scan first,
      block.span.stop ≤ Text.byteLength first := fun block member =>
    parser.scanner.stop_le_of_mem_scan member
  have sameFirst := parser.parseBlocks_append_source sourcePath inside second .empty
  constructor
  · intro elements others closed parsedFirst parsedSecond
    rw [parse, ← sameFirst] at parsedFirst
    obtain ⟨later, goesOn⟩ := parseBlocks_append_of_ok parsedFirst
    rw [parse, parser.scanner.scan_append_of_closed whole closed]
    exact goesOn _ _ (parseBlocks_shift_of_ok (parseBlocks_of_empty parsedSecond later) _ _ _)
  · intro diagnostic refused
    rw [parse, ← sameFirst] at refused
    rw [parse, parser.scanner.scan_append whole]
    exact parseBlocks_append_of_error refused _

/-- A relative name in the first part does not touch the second part, and an unknown tag in the
first part is reported at the same place whatever follows. -/
theorem parse_continued_standard :
    ofConfig .standard .builtin = .ok standard ∧
    standard.parse "lib.js"
        ("/** @class pkg.A */\n/** @method .run */\n".toList ++ "/** @class B */\n".toList) =
      .ok [⟨"pkg.A", ⟨"pkg.A", ⟨1, 1, "lib.js", none, "class", "", .empty⟩⟩⟩,
        ⟨"pkg.A.run", ⟨".run", ⟨2, 2, "lib.js", none, "method", "", .empty⟩⟩⟩,
        ⟨"B", ⟨"B", ⟨3, 3, "lib.js", none, "class", "", .empty⟩⟩⟩] ∧
    ∀ more, standard.parse "lib.js" ("/** @class pkg.A */\n/** @nope x */\n".toList ++ more) =
      .error ⟨some .unknownTag, "unknown tag `@nope`",
        [⟨Span.between 20 34, "in this doc block", true⟩,
          ⟨Span.between 24 29, "unknown tag", false⟩],
        some "set `ignore_invalid_tags = true` to drop unknown tags"⟩ := by
  refine ⟨ofConfig_standard, ?_, fun more => ?_⟩
  · have whole : WholeLines "/** @class pkg.A */\n/** @method .run */\n".toList :=
      .inr (by decide)
    refine ((parse_continued _ _ whole _).1
      [⟨"pkg.A", ⟨"pkg.A", ⟨1, 1, "lib.js", none, "class", "", .empty⟩⟩⟩,
        ⟨"pkg.A.run", ⟨".run", ⟨2, 2, "lib.js", none, "method", "", .empty⟩⟩⟩]
      [⟨"B", ⟨"B", ⟨1, 1, "lib.js", none, "class", "", .empty⟩⟩⟩] ?_ ?_ ?_).trans ?_
    all_goals decide +kernel
  · have whole : WholeLines "/** @class pkg.A */\n/** @nope x */\n".toList := .inr (by decide)
    exact (parse_continued _ _ whole more).2 _ (by decide +kernel)

end DocParser

end DocComments
