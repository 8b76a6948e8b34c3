/-
This file says at which block a source is refused, what the refusal is about, and which places of
the source it labels.

Blocks are parsed in order, so a refused source has a first block that is not parsed. Either its
tags are refused, or its name has no path. A refusal of tags remembers the tags it is about by
their numbers: the tag that breaks a rule, and with a second element tag also the first one. In
both cases there is one primary label, on the whole block; all other labels are on tags, one for
every remembered tag whose marker was found again in the source.
-/

import DocComments.Proofs.Parsing

namespace DocComments

/-! ### What a refusal is about -/

namespace Classifier

/-- A tag that gives a block an element: its name stands for a type. -/
def IsElementTag (classifier : Classifier) (segment : Segment) : Prop :=
  ∃ tagType, classifier.table.canonicalName? (String.ofList segment.name) = some tagType

/-- A property tag: its name stands for no type, but for a property. -/
def IsPropertyTag (classifier : Classifier) (segment : Segment) (tag : PropertyTag) : Prop :=
  classifier.table.canonicalName? (String.ofList segment.name) = none ∧
    PropertyTag.ofName? (String.ofList segment.name) = some tag

/-- What the tags of a block may be refused for, with the numbers of the tags at fault. -/
inductive RefusedFor (classifier : Classifier) (segments : List Segment) : Rejection → Prop where
  | duplicate {first second : Nat} {firstTag secondTag : Segment}
      (firstFound : segments[first]? = some firstTag)
      (secondFound : segments[second]? = some secondTag) (ordered : first < second)
      (firstElement : classifier.IsElementTag firstTag)
      (secondElement : classifier.IsElementTag secondTag)
      (between : ∀ index segment, segments[index]? = some segment → index < second →
        index ≠ first → ¬ classifier.IsElementTag segment) :
      RefusedFor classifier segments (.duplicateElement first (String.ofList firstTag.name) second
        (String.ofList secondTag.name))
  | nameless {index : Nat} {segment : Segment} (found : segments[index]? = some segment)
      (element : classifier.IsElementTag segment)
      (nameless : TagValue.elementName? segment.value = none) :
      RefusedFor classifier segments (.missingName index (String.ofList segment.name))
  | malformed {index : Nat} {segment : Segment} {tag : PropertyTag}
      (found : segments[index]? = some segment)
      (property : classifier.IsPropertyTag segment tag)
      (unread : TagValue.change? tag classifier.style segment.value = none) :
      RefusedFor classifier segments (.malformedValue index tag)
  | unknown {index : Nat} {segment : Segment} (found : segments[index]? = some segment)
      (noElement : ¬ classifier.IsElementTag segment)
      (noProperty : PropertyTag.ofName? (String.ofList segment.name) = none)
      (strict : classifier.ignoreInvalidTags = false) :
      RefusedFor classifier segments (.unknownTag index (String.ofList segment.name))

/-- What is known of the element tag after some tags: it is the only one among them. -/
def Found (classifier : Classifier) (done : List Segment) : Option ElementTag → Prop
  | none => ∀ segment ∈ done, ¬ classifier.IsElementTag segment
  | some element => ∃ segment, done[element.index]? = some segment ∧
      element.written = String.ofList segment.name ∧ classifier.IsElementTag segment ∧
      ∀ index other, done[index]? = some other → index ≠ element.index →
        ¬ classifier.IsElementTag other

theorem Found.concat_of_not {classifier : Classifier} {done : List Segment}
    {element : Option ElementTag} (found : classifier.Found done element) {segment : Segment}
    (noElement : ¬ classifier.IsElementTag segment) :
    classifier.Found (done ++ [segment]) element := by
  cases element with
  | none =>
    intro other member
    rcases List.mem_append.mp member with old | new
    · exact found other old
    · exact List.mem_singleton.mp new ▸ noElement
  | some element =>
    obtain ⟨own, inDone, written, isElement, only⟩ := found
    have inside := (List.getElem?_eq_some_iff.mp inDone).1
    refine ⟨own, ?_, written, isElement, fun index other inAll different => ?_⟩
    · rw [List.getElem?_append_left inside, inDone]
    · rcases Nat.lt_or_ge index done.length with old | new
      · rw [List.getElem?_append_left old] at inAll
        exact only index other inAll different
      · rw [List.getElem?_append_right new] at inAll
        exact List.mem_singleton.mp (List.mem_of_getElem? inAll) ▸ noElement

theorem found_concat_self {classifier : Classifier} {done : List Segment}
    (none : classifier.Found done .none) {segment : Segment}
    (isElement : classifier.IsElementTag segment) {element : ElementTag}
    (index : element.index = done.length)
    (written : element.written = String.ofList segment.name) :
    classifier.Found (done ++ [segment]) (some element) := by
  refine ⟨segment, ?_, written, isElement, fun other own inAll different => ?_⟩
  · rw [index, List.getElem?_concat_length]
  · rw [index] at different
    have inside := (List.getElem?_eq_some_iff.mp inAll).1
    rw [List.length_append, List.length_singleton] at inside
    rw [List.getElem?_append_left (by omega)] at inAll
    exact none own (List.mem_of_getElem? inAll)

/-- The tags that follow are refused for the first of them that breaks a rule. -/
theorem refusedFor_of_collect {classifier : Classifier} {done : List Segment}
    {element : Option ElementTag} (found : classifier.Found done element)
    {attributes : Attributes} {segments : List Segment} {rejection : Rejection}
    (refused : classifier.collect done.length element attributes segments = .error rejection) :
    classifier.RefusedFor (done ++ segments) rejection := by
  induction segments generalizing done element attributes with
  | nil => cases refused
  | cons segment segments inductionHypothesis =>
    have here : (done ++ segment :: segments)[done.length]? = some segment := by
      rw [List.getElem?_append_right (Nat.le_refl _), Nat.sub_self, List.getElem?_cons_zero]
    have before {index : Nat} (inside : index < done.length) :
        (done ++ segment :: segments)[index]? = done[index]? :=
      List.getElem?_append_left inside
    have next : done ++ segment :: segments = done ++ [segment] ++ segments := by
      rw [List.append_assoc, List.singleton_append]
    have count : done.length + 1 = (done ++ [segment]).length := by
      rw [List.length_append, List.length_singleton]
    unfold collect at refused
    simp only at refused
    split at refused
    · rename_i tagType stands
      have isElement : classifier.IsElementTag segment := ⟨tagType, stands⟩
      split at refused
      · rename_i first
        obtain ⟨own, inDone, written, ownElement, only⟩ := found
        have inside := (List.getElem?_eq_some_iff.mp inDone).1
        cases refused
        rw [written]
        refine .duplicate ((before inside).trans inDone) here inside ownElement isElement ?_
        intro index other inAll earlier different
        rw [before earlier] at inAll
        exact only index other inAll different
      · split at refused
        · rename_i nameless
          cases refused
          exact .nameless here isElement nameless
        · rw [count] at refused
          rw [next]
          exact inductionHypothesis (found_concat_self found isElement rfl rfl) refused
    · rename_i noType
      have noElement : ¬ classifier.IsElementTag segment := by
        rintro ⟨tagType, stands⟩
        cases noType.symm.trans stands
      split at refused
      · rename_i tag isProperty
        split at refused
        · rename_i unread
          cases refused
          exact .malformed here ⟨noType, isProperty⟩ unread
        · rw [count] at refused
          rw [next]
          exact inductionHypothesis (found.concat_of_not noElement) refused
      · rename_i noProperty
        split at refused
        · rw [count] at refused
          rw [next]
          exact inductionHypothesis (found.concat_of_not noElement) refused
        · rename_i strict
          cases refused
          exact .unknown here noElement noProperty (by simpa using strict)

/-- Tags are refused for one of them that breaks a rule, or because none is an element tag. -/
theorem refusedFor_of_classify {classifier : Classifier} {tagged : TaggedText} {block : Block}
    {sourcePath : String} {rejection : Rejection}
    (refused : classifier.classify tagged block sourcePath = .error rejection) :
    classifier.RefusedFor tagged.segments rejection ∨ rejection = .missingElement := by
  unfold classify at refused
  split at refused
  · rename_i own collected
    cases refused
    have start : classifier.Found [] none := fun _ member => absurd member List.not_mem_nil
    exact .inl (refusedFor_of_collect start collected)
  · cases refused
    exact .inr rfl
  · cases refused

end Classifier

/-! ### Labels of a refusal -/

namespace Rejection

/-- The labels of remembered tags: those whose number has a place. -/
def tagLabels (rejection : Rejection) (places : List Span) : List Label :=
  rejection.marks.filterMap fun mark => places[mark.1]?.map fun span => ⟨span, mark.2, false⟩

theorem primary_of_mem_tagLabels {rejection : Rejection} {places : List Span} {label : Label}
    (member : label ∈ rejection.tagLabels places) : label.primary = false := by
  obtain ⟨mark, -, made⟩ := List.mem_filterMap.mp member
  obtain ⟨span, -, rfl⟩ := Option.map_eq_some_iff.mp made
  rfl

/-- Steps that each add a label or none leave the labels in order. -/
theorem labels_foldl {Mark : Type} {step : Diagnostic → Mark → Diagnostic}
    (label? : Mark → Option Label)
    (adds : ∀ diagnostic mark,
      (step diagnostic mark).labels = diagnostic.labels ++ (label? mark).toList)
    (marks : List Mark) (diagnostic : Diagnostic) :
    (marks.foldl step diagnostic).labels = diagnostic.labels ++ marks.filterMap label? := by
  induction marks generalizing diagnostic with
  | nil => rw [List.foldl_nil, List.filterMap_nil, List.append_nil]
  | cons mark marks inductionHypothesis =>
    rw [List.foldl_cons, inductionHypothesis, adds, List.append_assoc, List.filterMap_cons]
    cases label? mark with
    | none => rfl
    | some label => rfl

/-- Locating a refusal labels the block and then the tags. -/
theorem labels_locate (rejection : Rejection) (block : Span) (places : List Span) :
    (rejection.locate block places).labels =
      rejection.diagnostic.labels ++ blockLabel block :: rejection.tagLabels places := by
  rw [locate, labels_foldl fun mark => places[mark.1]?.map fun span => ⟨span, mark.2, false⟩,
    Diagnostic.addLabel, List.append_assoc]
  · rfl
  · intro diagnostic mark
    cases places[mark.1]? with
    | none => exact (List.append_nil _).symm
    | some span => rfl

theorem code_locate (rejection : Rejection) (block : Span) (places : List Span) :
    (rejection.locate block places).code = rejection.diagnostic.code := by
  refine List.foldlRecOn (motive := fun located : Diagnostic =>
      located.code = rejection.diagnostic.code)
    rejection.marks _ rfl fun diagnostic same mark _ => ?_
  split
  · exact same
  · exact same

end Rejection

theorem Classifier.RefusedFor.labels_eq_nil {classifier : Classifier} {segments : List Segment}
    {rejection : Rejection} (refused : classifier.RefusedFor segments rejection) :
    rejection.diagnostic.labels = [] := by
  cases refused with
  | duplicate => rfl
  | nameless => rfl
  | malformed => rfl
  | unknown => rfl

theorem Classifier.labels_eq_nil_of_classify {classifier : Classifier} {tagged : TaggedText}
    {block : Block} {sourcePath : String} {rejection : Rejection}
    (refused : classifier.classify tagged block sourcePath = .error rejection) :
    rejection.diagnostic.labels = [] := by
  rcases refusedFor_of_classify refused with refusedFor | rfl
  · exact refusedFor.labels_eq_nil
  · rfl

/-! ### The refused block -/

namespace DocParser

/-- A block is refused because its tags are, or because its name has no path. -/
theorem parseBlock_eq_error_iff {parser : DocParser} {sourcePath : String} {source : List Char}
    {history : History} {block : Block} {diagnostic : Diagnostic} :
    parser.parseBlock sourcePath source history block = .error diagnostic ↔
      ∃ tagged, parser.search.cut? block.text = some tagged ∧
        ((∃ rejection, parser.classifier.classify tagged block sourcePath = .error rejection ∧
            diagnostic = rejection.locate block.span (parser.places source block tagged)) ∨
          ∃ record error, parser.classifier.classify tagged block sourcePath = .ok record ∧
            history.resolve record.declaredName = .error error ∧
            diagnostic = error.diagnostic.addLabel (Rejection.blockLabel block.span)) := by
  unfold parseBlock recordOf
  cases parser.search.cut? block.text with
  | none => exact iff_of_false nofun nofun
  | some tagged =>
    simp only [Option.some.injEq, exists_eq_left']
    cases parser.classifier.classify tagged block sourcePath with
    | error rejection =>
      simp only [Except.error.injEq, exists_eq_left', reduceCtorEq, false_and, exists_false,
        or_false, eq_comm]
    | ok record =>
      simp only [reduceCtorEq, false_and, exists_false, false_or, Except.ok.injEq]
      cases resolved : history.resolve record.declaredName with
      | error error =>
        constructor
        · intro refused
          exact ⟨record, error, rfl, resolved, (Except.error.inj refused).symm⟩
        · rintro ⟨own, reason, rfl, ownResolved, rfl⟩
          cases resolved.symm.trans ownResolved
          rfl
      | ok result =>
        refine iff_of_false nofun ?_
        rintro ⟨own, reason, rfl, ownResolved, -⟩
        cases resolved.symm.trans ownResolved

/-- A source is refused at a block: those before it are parsed, and with it they are refused. -/
def RefusedAt (parser : DocParser) (sourcePath : String) (source : List Char) (block : Block)
    (diagnostic : Diagnostic) : Prop :=
  ∃ before after elements, parser.scanner.scan source = before ++ block :: after ∧
    parser.parseBlocks sourcePath source .empty before = .ok elements ∧
    parser.parseBlocks sourcePath source .empty (before ++ [block]) = .error diagnostic

theorem exists_refused_of_parseBlocks {parser : DocParser} {sourcePath : String}
    {source : List Char} {history : History} {blocks : List Block} {diagnostic : Diagnostic}
    (refused : parser.parseBlocks sourcePath source history blocks = .error diagnostic) :
    ∃ before block after elements later, blocks = before ++ block :: after ∧
      parser.parseBlocks sourcePath source history before = .ok elements ∧
      parser.parseBlocks sourcePath source history (before ++ [block]) = .error diagnostic ∧
      parser.parseBlock sourcePath source later block = .error diagnostic := by
  induction blocks generalizing history with
  | nil => cases refused
  | cons block blocks inductionHypothesis =>
    rw [parseBlocks_cons] at refused
    cases step : parser.parseBlock sourcePath source history block with
    | error own =>
      rw [step] at refused
      cases refused
      refine ⟨[], block, blocks, [], history, rfl, rfl, ?_, step⟩
      rw [List.nil_append, parseBlocks_cons, step]
    | ok parsed =>
      rw [step] at refused
      simp only at refused
      cases rest : parser.parseBlocks sourcePath source parsed.2 blocks with
      | ok elements =>
        rw [rest] at refused
        cases refused
      | error own =>
        rw [rest] at refused
        cases refused
        obtain ⟨before, refusedBlock, after, elements, later, rfl, passed, stopped, reason⟩ :=
          inductionHypothesis rest
        refine ⟨block :: before, refusedBlock, after, parsed.1.toList ++ elements, later, rfl, ?_,
          ?_, reason⟩
        · rw [parseBlocks_cons, step]
          simp only [passed]
          rfl
        · rw [List.cons_append, parseBlocks_cons, step]
          simp only [stopped]
          rfl

/-- A refused source is refused at one of its blocks. -/
theorem exists_refusedAt {parser : DocParser} {sourcePath : String} {source : List Char}
    {diagnostic : Diagnostic} (refused : parser.parse sourcePath source = .error diagnostic) :
    ∃ block history, parser.RefusedAt sourcePath source block diagnostic ∧
      parser.parseBlock sourcePath source history block = .error diagnostic := by
  obtain ⟨before, block, after, elements, later, scanned, passed, stopped, reason⟩ :=
    exists_refused_of_parseBlocks refused
  exact ⟨block, later, ⟨before, after, elements, scanned, passed, stopped⟩, reason⟩

theorem RefusedAt.mem_scan {parser : DocParser} {sourcePath : String} {source : List Char}
    {block : Block} {diagnostic : Diagnostic}
    (refused : parser.RefusedAt sourcePath source block diagnostic) :
    block ∈ parser.scanner.scan source := by
  obtain ⟨before, after, elements, scanned, -, -⟩ := refused
  rw [scanned]
  exact List.mem_append_right _ List.mem_cons_self

theorem RefusedAt.parse_eq_error {parser : DocParser} {sourcePath : String} {source : List Char}
    {block : Block} {diagnostic : Diagnostic}
    (refused : parser.RefusedAt sourcePath source block diagnostic) :
    parser.parse sourcePath source = .error diagnostic := by
  obtain ⟨before, after, elements, scanned, -, stopped⟩ := refused
  rw [parse, scanned, show before ++ block :: after = before ++ [block] ++ after by simp]
  exact parseBlocks_append_of_error stopped _

/-- A refused block has one primary label, which is on the whole block. -/
theorem labels_of_refusedBlock {parser : DocParser} {sourcePath : String} {source : List Char}
    {history : History} {block : Block} {diagnostic : Diagnostic}
    (refused : parser.parseBlock sourcePath source history block = .error diagnostic) :
    ∃ others, diagnostic.labels = Rejection.blockLabel block.span :: others ∧
      ∀ label ∈ others, label.primary = false := by
  obtain ⟨tagged, -, ⟨rejection, classified, rfl⟩ | ⟨record, error, -, -, rfl⟩⟩ :=
    parseBlock_eq_error_iff.mp refused
  · refine ⟨rejection.tagLabels (parser.places source block tagged), ?_,
      fun label => Rejection.primary_of_mem_tagLabels⟩
    rw [Rejection.labels_locate, Classifier.labels_eq_nil_of_classify classified, List.nil_append]
  · exact ⟨[], rfl, nofun⟩

end DocParser

end DocComments
