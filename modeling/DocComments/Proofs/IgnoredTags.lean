/-
This file proves what it means to ignore unknown tags: they count as if they were not there.

A block is classified in two ways, once with its unknown tags ignored, and once with unknown tags
refused but those of the block taken out before. Both runs take in the same tags with the same
effects; only the numbers of the tags differ, and these show in nothing but the places of a refusal.
So the result is the same record, or a refusal for the same reason that is about the same tags. In
particular no block is refused for an unknown tag, and a block that has none is classified as if
nothing were ignored. Since a source is parsed block by block, the same holds of sources.
-/

import DocComments.Proofs.BlockAttributes

namespace DocComments

/-! ### The same decision for fewer tags -/

/-- A tag that is called neither like a type nor like a property. -/
def Segment.isUnknown (table : TagTable) (segment : Segment) : Bool :=
  (table.canonicalName? (String.ofList segment.name)).isNone &&
    (PropertyTag.ofName? (String.ofList segment.name)).isNone

/-- The tags that are not unknown. -/
def TagTable.knownTags (table : TagTable) (segments : List Segment) : List Segment :=
  segments.filter fun segment => !segment.isUnknown table

/-- A block without its unknown tags. The description stays as it is. -/
def TaggedText.withoutUnknown (table : TagTable) (tagged : TaggedText) : TaggedText :=
  { tagged with segments := table.knownTags tagged.segments }

theorem TagTable.knownTags_cons_of_unknown {table : TagTable} {segment : Segment}
    (unknown : segment.isUnknown table = true) (segments : List Segment) :
    table.knownTags (segment :: segments) = table.knownTags segments := by
  rw [knownTags, List.filter_cons_of_neg (by simp [unknown]), knownTags]

theorem TagTable.knownTags_cons_of_known {table : TagTable} {segment : Segment}
    (known : segment.isUnknown table = false) (segments : List Segment) :
    table.knownTags (segment :: segments) = segment :: table.knownTags segments := by
  rw [knownTags, List.filter_cons_of_pos (by simp [known]), knownTags]

/-- The remarks of a refusal, with the tags that they are on in place of the numbers of these. -/
def Rejection.remarks (rejection : Rejection) (segments : List Segment) :
    List (Option Segment × String) :=
  rejection.marks.map fun mark => (segments[mark.1]?, mark.2)

/-- Results for two lists of tags are the same but for the numbers of the tags: both are accepted
with the same outcome, or both are refused with the same diagnostic and the same remarks on the
same tags. -/
inductive SameButNumbers (segments others : List Segment) {Outcome : Type}
    (same : Outcome → Outcome → Prop) :
    Except Rejection Outcome → Except Rejection Outcome → Prop where
  | accepted {outcome other : Outcome} (alike : same outcome other) :
      SameButNumbers segments others same (.ok outcome) (.ok other)
  | refused {rejection other : Rejection} (reason : rejection.diagnostic = other.diagnostic)
      (remarks : rejection.remarks segments = other.remarks others) :
      SameButNumbers segments others same (.error rejection) (.error other)

/-- Two element tags are the same but for their numbers. -/
structure ElementTag.Alike (segments others : List Segment) (tag other : ElementTag) : Prop where
  segment : segments[tag.index]? = others[other.index]?
  written : tag.written = other.written
  tagType : tag.tagType = other.tagType
  name : tag.name = other.name

/-- What was found among tags is the same but for the number of the element tag. -/
def AlikeFindings (segments others : List Segment)
    (found other : Option ElementTag × Attributes) : Prop :=
  Option.Rel (ElementTag.Alike segments others) found.1 other.1 ∧ found.2 = other.2

namespace Classifier

/-- The classifier that ignores unknown tags, or does not, and is otherwise the same. -/
def ignoring (classifier : Classifier) (ignore : Bool) : Classifier :=
  { classifier with ignoreInvalidTags := ignore }

@[simp] theorem table_ignoring (classifier : Classifier) (ignore : Bool) :
    (classifier.ignoring ignore).table = classifier.table := rfl

@[simp] theorem ignoreInvalidTags_ignoring (classifier : Classifier) (ignore : Bool) :
    (classifier.ignoring ignore).ignoreInvalidTags = ignore := rfl

@[simp] theorem style_ignoring (classifier : Classifier) (ignore : Bool) :
    (classifier.ignoring ignore).style = classifier.style := rfl

variable {classifier : Classifier} {all kept segments rest : List Segment}
  {segment : Segment} {index number : Nat} {element other : Option ElementTag}

/-- A known tag is taken in alike under both of its numbers, if what follows it is. -/
theorem sameButNumbers_collect_cons (known : segment.isUnknown classifier.table = false)
    (here : all[index]? = kept[number]?)
    (alike : Option.Rel (ElementTag.Alike all kept) element other) (attributes : Attributes)
    (goesOn : ∀ element other attributes, Option.Rel (ElementTag.Alike all kept) element other →
      SameButNumbers all kept (AlikeFindings all kept)
        ((classifier.ignoring true).collect (index + 1) element attributes segments)
        ((classifier.ignoring false).collect (number + 1) other attributes rest)) :
    SameButNumbers all kept (AlikeFindings all kept)
      ((classifier.ignoring true).collect index element attributes (segment :: segments))
      ((classifier.ignoring false).collect number other attributes (segment :: rest)) := by
  rw [collect, collect, table_ignoring, table_ignoring]
  cases stands : classifier.table.canonicalName? (String.ofList segment.name) with
  | some tagType =>
    cases alike with
    | some alike =>
      refine .refused (by rw [alike.written]; rfl) ?_
      simp only [Rejection.remarks, Rejection.duplicateElement, List.map_cons, List.map_nil,
        alike.segment, here]
    | none =>
      simp only
      cases TagValue.elementName? segment.value with
      | none =>
        refine .refused rfl ?_
        simp only [Rejection.remarks, Rejection.missingName, List.map_cons, List.map_nil, here]
      | some name =>
        have found : ElementTag.Alike all kept
            ⟨index, String.ofList segment.name, tagType, name⟩
            ⟨number, String.ofList segment.name, tagType, name⟩ := ⟨here, rfl, rfl, rfl⟩
        exact goesOn _ _ attributes (.some found)
  | none =>
    simp only
    cases isProperty : PropertyTag.ofName? (String.ofList segment.name) with
    | some tag =>
      simp only [style_ignoring]
      cases TagValue.change? tag classifier.style segment.value with
      | none =>
        refine .refused rfl ?_
        simp only [Rejection.remarks, Rejection.malformedValue, List.map_cons, List.map_nil, here]
      | some change => exact goesOn _ _ _ alike
    | none =>
      rw [Segment.isUnknown, stands, isProperty] at known
      cases known

theorem collect_cons_of_unknown (unknown : segment.isUnknown classifier.table = true)
    (index : Nat) (element : Option ElementTag) (attributes : Attributes)
    (segments : List Segment) :
    (classifier.ignoring true).collect index element attributes (segment :: segments) =
      (classifier.ignoring true).collect (index + 1) element attributes segments := by
  have ⟨noType, noProperty⟩ := Bool.and_eq_true_iff.mp unknown
  rw [collect, table_ignoring, Option.isNone_iff_eq_none.mp noType]
  simp only
  rw [Option.isNone_iff_eq_none.mp noProperty]
  simp only
  rw [if_pos (ignoreInvalidTags_ignoring classifier true)]

/-- The tags that are left are taken in alike whether the unknown ones among them are ignored or
taken out, if the same element tag was found before. -/
theorem sameButNumbers_collect {done others : List Segment} (inAll : all = done ++ segments)
    (inKept : kept = others ++ classifier.table.knownTags segments)
    (alike : Option.Rel (ElementTag.Alike all kept) element other) (attributes : Attributes) :
    SameButNumbers all kept (AlikeFindings all kept)
      ((classifier.ignoring true).collect done.length element attributes segments)
      ((classifier.ignoring false).collect others.length other attributes
        (classifier.table.knownTags segments)) := by
  induction segments generalizing done others element other attributes with
  | nil => exact .accepted ⟨alike, rfl⟩
  | cons segment segments inductionHypothesis =>
    have nextInAll : all = done ++ [segment] ++ segments := by
      rw [inAll, List.append_assoc, List.singleton_append]
    have count (before : List Segment) : before.length + 1 = (before ++ [segment]).length := by
      rw [List.length_append, List.length_singleton]
    cases unknown : segment.isUnknown classifier.table with
    | true =>
      rw [TagTable.knownTags_cons_of_unknown unknown] at inKept ⊢
      rw [collect_cons_of_unknown unknown, count]
      exact inductionHypothesis nextInAll inKept alike attributes
    | false =>
      rw [TagTable.knownTags_cons_of_known unknown] at inKept ⊢
      have nextInKept : kept = others ++ [segment] ++ classifier.table.knownTags segments := by
        rw [inKept, List.append_assoc, List.singleton_append]
      have here : all[done.length]? = kept[others.length]? := by
        rw [inAll, inKept, getElem?_append_cons_length, getElem?_append_cons_length]
      refine sameButNumbers_collect_cons unknown here alike attributes ?_
      intro next nextOther attributes alikeNext
      rw [count, count]
      exact inductionHypothesis nextInAll nextInKept alikeNext attributes

/-- A block is classified with its unknown tags ignored as it is without them. -/
theorem sameButNumbers_classify (classifier : Classifier) (tagged : TaggedText) (block : Block)
    (sourcePath : String) :
    SameButNumbers tagged.segments (tagged.withoutUnknown classifier.table).segments Eq
      ((classifier.ignoring true).classify tagged block sourcePath)
      ((classifier.ignoring false).classify (tagged.withoutUnknown classifier.table) block
        sourcePath) := by
  have collected := @sameButNumbers_collect classifier tagged.segments
    (tagged.withoutUnknown classifier.table).segments tagged.segments none none [] []
    (List.nil_append _).symm (List.nil_append _).symm .none .empty
  rw [List.length_nil] at collected
  rw [classify, classify]
  generalize (classifier.ignoring true).collect 0 none .empty tagged.segments = lenient
    at collected
  generalize strictly : (classifier.ignoring false).collect 0 none .empty
    (tagged.withoutUnknown classifier.table).segments = strict
  change (classifier.ignoring false).collect 0 none .empty
    (classifier.table.knownTags tagged.segments) = strict at strictly
  rw [strictly] at collected
  cases collected with
  | refused reason remarks => exact .refused reason remarks
  | @accepted found other alike =>
    obtain ⟨element, attributes⟩ := found
    obtain ⟨otherElement, otherAttributes⟩ := other
    obtain ⟨alikeElement, rfl⟩ := alike
    cases alikeElement with
    | none => exact .refused rfl rfl
    | @some tag otherTag alike =>
      refine .accepted ?_
      rw [alike.name, alike.tagType]
      rfl

/-- A block whose unknown tags would be refused has none if it is accepted. -/
theorem withoutUnknown_of_classify {tagged : TaggedText} {block : Block} {sourcePath : String}
    {record : ElementRecord} (strict : classifier.ignoreInvalidTags = false)
    (classified : classifier.classify tagged block sourcePath = .ok record) :
    tagged.withoutUnknown classifier.table = tagged := by
  have clean := (clean_of_classify classified).1
  have allKnown : classifier.table.knownTags tagged.segments = tagged.segments := by
    refine List.filter_eq_self.mpr fun segment member => ?_
    obtain ⟨index, found⟩ := List.mem_iff_getElem?.mp member
    cases unknown : segment.isUnknown classifier.table with
    | false => rfl
    | true =>
      have ⟨noType, noProperty⟩ := Bool.and_eq_true_iff.mp unknown
      refine absurd (.unknown found ?_ (Option.isNone_iff_eq_none.mp noProperty) strict)
        (clean index _)
      rintro ⟨tagType, stands⟩
      rw [stands] at noType
      cases noType
  rw [TaggedText.withoutUnknown, allKnown]

/-- An accepted block is accepted with the same record if unknown tags are ignored. -/
theorem classify_ignoring_of_ok {tagged : TaggedText} {block : Block} {sourcePath : String}
    {record : ElementRecord} (strict : classifier.ignoreInvalidTags = false)
    (classified : classifier.classify tagged block sourcePath = .ok record) :
    (classifier.ignoring true).classify tagged block sourcePath = .ok record := by
  have same := sameButNumbers_classify classifier tagged block sourcePath
  rw [withoutUnknown_of_classify strict classified, ← strict] at same
  change SameButNumbers _ _ _ _ (classifier.classify tagged block sourcePath) at same
  rw [classified] at same
  generalize (classifier.ignoring true).classify tagged block sourcePath = result at same
  cases same with
  | accepted alike => rw [alike]

end Classifier

/-! ### Sources -/

namespace DocParser

/-- The parser that ignores unknown tags, or does not, and is otherwise the same. -/
def ignoring (ignore : Bool) (parser : DocParser) : DocParser :=
  { parser with classifier := parser.classifier.ignoring ignore }

/-- The setting only changes how the parser treats unknown tags. -/
theorem ofConfig_ignoring (config : ParserConfig) (table : TagTable) (ignore : Bool) :
    ofConfig { config with ignoreInvalidTags := ignore } table =
      (ofConfig config table).map (ignoring ignore) := by
  have samePatterns : Patterns.ofConfig { config with ignoreInvalidTags := ignore } =
      Patterns.ofConfig config := rfl
  rw [ofConfig, ofConfig, samePatterns]
  cases Patterns.ofConfig config with
  | error diagnostic => rfl
  | ok patterns => rfl

variable {parser : DocParser} {sourcePath : String} {source : List Char} {history : History}

theorem parseBlock_ignoring_of_ok (strict : parser.classifier.ignoreInvalidTags = false)
    {block : Block} {element : Option ResolvedElement} {later : History}
    (parsed : parser.parseBlock sourcePath source history block = .ok (element, later)) :
    (parser.ignoring true).parseBlock sourcePath source history block = .ok (element, later) := by
  rw [parseBlock_eq_ok_iff] at parsed ⊢
  rcases parsed with untagged | ⟨tagged, record, path, cut, classified, resolved, declares⟩
  · exact .inl untagged
  · exact .inr ⟨tagged, record, path, cut, Classifier.classify_ignoring_of_ok strict classified,
      resolved, declares⟩

theorem parseBlocks_ignoring_of_ok (strict : parser.classifier.ignoreInvalidTags = false)
    {blocks : List Block} {elements : List ResolvedElement}
    (parsed : parser.parseBlocks sourcePath source history blocks = .ok elements) :
    (parser.ignoring true).parseBlocks sourcePath source history blocks = .ok elements := by
  induction blocks generalizing history elements with
  | nil => exact parsed
  | cons block blocks inductionHypothesis =>
    obtain ⟨element, later, others, step, rest, rfl⟩ := parseBlocks_cons_eq_ok_iff.mp parsed
    exact parseBlocks_cons_eq_ok_iff.mpr ⟨element, later, others,
      parseBlock_ignoring_of_ok strict step, inductionHypothesis rest, rfl⟩

/-- Where unknown tags are ignored, no source is refused for one. -/
theorem code_ne_unknownTag (ignores : parser.classifier.ignoreInvalidTags = true)
    {diagnostic : Diagnostic} (refused : parser.parse sourcePath source = .error diagnostic) :
    diagnostic.code ≠ some .unknownTag := by
  obtain ⟨block, history, -, reason⟩ := exists_refusedAt refused
  obtain ⟨tagged, -, ⟨rejection, classified, rfl⟩ | ⟨record, error, -, -, rfl⟩⟩ :=
    parseBlock_eq_error_iff.mp reason
  · rw [Rejection.code_locate]
    rcases Classifier.refusedFor_of_classify classified with refusedFor | rfl
    · cases refusedFor with
      | duplicate | nameless | malformed => exact nofun
      | unknown _ _ _ strict => cases ignores.symm.trans strict
    · exact nofun
  · cases error with
    | invalid | noParent => exact nofun

/-- Ignoring unknown tags does away with refusals for such tags, and with nothing else. Let a
configuration that does not ignore them give a parser. Then the configuration that does so gives
one too, and this one parses every source that the other one parses, to the same elements. It
classifies every block as the other one does without the unknown tags: to the same record, or with
a refusal of the same diagnostic that remarks the same on the same tags. It never refuses a source
for an unknown tag. -/
theorem ignoring_unknown_tags {config : ParserConfig} (strict : config.ignoreInvalidTags = false)
    {table : TagTable} {parser : DocParser} (accepted : ofConfig config table = .ok parser) :
    ∃ lenient, ofConfig { config with ignoreInvalidTags := true } table = .ok lenient ∧
      (∀ sourcePath source elements, parser.parse sourcePath source = .ok elements →
        lenient.parse sourcePath source = .ok elements) ∧
      (∀ tagged block sourcePath,
        SameButNumbers tagged.segments (tagged.withoutUnknown table).segments Eq
          (lenient.classifier.classify tagged block sourcePath)
          (parser.classifier.classify (tagged.withoutUnknown table) block sourcePath)) ∧
      ∀ sourcePath source diagnostic, lenient.parse sourcePath source = .error diagnostic →
        diagnostic.code ≠ some .unknownTag := by
  obtain ⟨patterns, -, -, -, made⟩ := exists_patterns_of_ofConfig accepted
  have isStrict : parser.classifier.ignoreInvalidTags = false := by rw [made, ← strict]
  have sameTable : parser.classifier.table = table := by rw [made]
  refine ⟨parser.ignoring true, by rw [ofConfig_ignoring, accepted]; rfl, ?_, ?_, ?_⟩
  · intro sourcePath source elements parsed
    exact parseBlocks_ignoring_of_ok isStrict parsed
  · intro tagged block sourcePath
    have same := Classifier.sameButNumbers_classify parser.classifier tagged block sourcePath
    rw [sameTable, ← isStrict] at same
    exact same
  · intro sourcePath source diagnostic refused
    exact code_ne_unknownTag rfl refused

/-- A block with an unknown tag before two element tags is refused for these, which are its second
and third tags, as a block of only two tags is. A block with unknown tags and no others is refused,
but not for them. -/
theorem ignoring_unknown_tags_standard :
    (standard.ignoring true).parse "lib.js" "/** @class A */\n".toList =
      .ok [⟨"A", ⟨"A", ⟨1, 1, "lib.js", none, "class", "", .empty⟩⟩⟩] ∧
    SameButNumbers
      [⟨"nope".toList, "x".toList, ⟨0, 7⟩⟩, ⟨"class".toList, "A".toList, ⟨7, 15⟩⟩,
        ⟨"class".toList, "B".toList, ⟨15, 23⟩⟩]
      [⟨"class".toList, "A".toList, ⟨7, 15⟩⟩, ⟨"class".toList, "B".toList, ⟨15, 23⟩⟩] Eq
      (.error (.duplicateElement 1 "class" 2 "class") : Except Rejection ElementRecord)
      (.error (.duplicateElement 0 "class" 1 "class")) ∧
    ∃ diagnostic, (standard.ignoring true).parse "lib.js" "/** @nope x */\n".toList =
      .error diagnostic ∧ diagnostic.code ≠ some .unknownTag := by
  obtain ⟨lenient, given, parses, classifies, never⟩ :=
    ignoring_unknown_tags rfl ofConfig_standard
  obtain rfl : standard.ignoring true = lenient := by
    rw [ofConfig_ignoring, ofConfig_standard] at given
    exact Except.ok.inj given
  refine ⟨parses _ _ _ (by decide +kernel), ?_, ?_⟩
  · have same := classifies
      ⟨[], [⟨"nope".toList, "x".toList, ⟨0, 7⟩⟩, ⟨"class".toList, "A".toList, ⟨7, 15⟩⟩,
        ⟨"class".toList, "B".toList, ⟨15, 23⟩⟩]⟩ ⟨1, 1, Span.between 0 0, []⟩ "lib.js"
    have kept : (TaggedText.withoutUnknown .builtin
        ⟨[], [⟨"nope".toList, "x".toList, ⟨0, 7⟩⟩, ⟨"class".toList, "A".toList, ⟨7, 15⟩⟩,
          ⟨"class".toList, "B".toList, ⟨15, 23⟩⟩]⟩) =
        ⟨[], [⟨"class".toList, "A".toList, ⟨7, 15⟩⟩, ⟨"class".toList, "B".toList, ⟨15, 23⟩⟩]⟩ := by
      decide +kernel
    rw [kept] at same
    have refused : (standard.ignoring true).classifier.classify
        ⟨[], [⟨"nope".toList, "x".toList, ⟨0, 7⟩⟩, ⟨"class".toList, "A".toList, ⟨7, 15⟩⟩,
          ⟨"class".toList, "B".toList, ⟨15, 23⟩⟩]⟩ ⟨1, 1, Span.between 0 0, []⟩ "lib.js" =
        .error (.duplicateElement 1 "class" 2 "class") := by
      decide +kernel
    have refusedOther : standard.classifier.classify
        ⟨[], [⟨"class".toList, "A".toList, ⟨7, 15⟩⟩, ⟨"class".toList, "B".toList, ⟨15, 23⟩⟩]⟩
        ⟨1, 1, Span.between 0 0, []⟩ "lib.js" =
        .error (.duplicateElement 0 "class" 1 "class") := by
      decide +kernel
    rwa [refused, refusedOther] at same
  · have refused : (standard.ignoring true).parse "lib.js" "/** @nope x */\n".toList =
        .error ⟨some .missingElementTag, "doc block has tags but no element tag",
          [⟨Span.between 0 14, "in this doc block", true⟩],
          some "add an element tag such as `@function name`"⟩ := by
      decide +kernel
    exact ⟨_, refused, never _ _ _ refused⟩

end DocParser

end DocComments
