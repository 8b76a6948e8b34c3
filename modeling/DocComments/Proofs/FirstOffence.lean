/-
This file proves that the first tag that breaks a rule decides how a block is refused.

Whether a tag breaks a rule can be said without going through the tags: it depends on the tag, and
on whether a tag before it is an element tag. A block in which some tag breaks a rule is refused for
the first that does; a block in which none does has at most one element tag, and it is accepted if
it has one. The attributes of an accepted block are what its property tags make of no attributes,
one after the other.

The tags are taken in one by one, and what is known after some of them is the only element tag
among them, if there is one. The proof says once what the next tag does to that, so the run over all
tags is an induction over the tags that are left.
-/

import DocComments.Proofs.Declarations
import DocComments.Proofs.Refusals

namespace DocComments

namespace Classifier

/-! ### The rules -/

/-- A tag is the first element tag among the tags of a block. -/
structure IsFirstElement (classifier : Classifier) (segments : List Segment) (index : Nat)
    (segment : Segment) : Prop where
  found : segments[index]? = some segment
  element : classifier.IsElementTag segment
  first : ∀ earlier other, earlier < index → segments[earlier]? = some other →
    ¬ classifier.IsElementTag other

/-- The tag of a number breaks a rule, and how a block is refused for it. -/
inductive Offends (classifier : Classifier) (segments : List Segment) (index : Nat) :
    Rejection → Prop where
  | duplicate {segment firstTag : Segment} {first : Nat}
      (found : segments[index]? = some segment) (element : classifier.IsElementTag segment)
      (isFirst : classifier.IsFirstElement segments first firstTag) (earlier : first < index) :
      Offends classifier segments index (.duplicateElement first (String.ofList firstTag.name) index
        (String.ofList segment.name))
  | nameless {segment : Segment} (isFirst : classifier.IsFirstElement segments index segment)
      (nameless : TagValue.elementName? segment.value = none) :
      Offends classifier segments index (.missingName index (String.ofList segment.name))
  | malformed {segment : Segment} {tag : PropertyTag} (found : segments[index]? = some segment)
      (property : classifier.IsPropertyTag segment tag)
      (unread : TagValue.change? tag classifier.style segment.value = none) :
      Offends classifier segments index (.malformedValue index tag)
  | unknown {segment : Segment} (found : segments[index]? = some segment)
      (noElement : ¬ classifier.IsElementTag segment)
      (noProperty : PropertyTag.ofName? (String.ofList segment.name) = none)
      (strict : classifier.ignoreInvalidTags = false) :
      Offends classifier segments index (.unknownTag index (String.ofList segment.name))

variable {classifier : Classifier} {segments : List Segment} {index : Nat} {segment : Segment}
  {rejection : Rejection}

theorem IsFirstElement.unique {other : Nat} {otherTag : Segment}
    (isFirst : classifier.IsFirstElement segments index segment)
    (isFirst' : classifier.IsFirstElement segments other otherTag) :
    index = other ∧ segment = otherTag := by
  rcases Nat.lt_trichotomy index other with earlier | rfl | earlier
  · exact absurd isFirst.element (isFirst'.first index segment earlier isFirst.found)
  · exact ⟨rfl, Option.some.inj (isFirst.found.symm.trans isFirst'.found)⟩
  · exact absurd isFirst'.element (isFirst.first other otherTag earlier isFirst'.found)

/-- An element tag breaks a rule if it is not the first one or has no name. -/
theorem Offends.cases_of_element (offends : classifier.Offends segments index rejection)
    (found : segments[index]? = some segment) (element : classifier.IsElementTag segment) :
    (∃ first firstTag, classifier.IsFirstElement segments first firstTag ∧ first < index ∧
      rejection = .duplicateElement first (String.ofList firstTag.name) index
        (String.ofList segment.name)) ∨
    (classifier.IsFirstElement segments index segment ∧
      TagValue.elementName? segment.value = none ∧
      rejection = .missingName index (String.ofList segment.name)) := by
  cases offends with
  | duplicate own _ isFirst earlier =>
    cases Option.some.inj (found.symm.trans own)
    exact .inl ⟨_, _, isFirst, earlier, rfl⟩
  | nameless isFirst nameless =>
    cases Option.some.inj (found.symm.trans isFirst.found)
    exact .inr ⟨isFirst, nameless, rfl⟩
  | malformed own property _ =>
    cases Option.some.inj (found.symm.trans own)
    obtain ⟨tagType, stands⟩ := element
    cases property.1.symm.trans stands
  | unknown own noElement _ _ =>
    cases Option.some.inj (found.symm.trans own)
    exact absurd element noElement

/-- Any other tag breaks a rule if it is a property tag that does not take its value, or if it is
unknown and such tags are not ignored. -/
theorem Offends.cases_of_not_element (offends : classifier.Offends segments index rejection)
    (found : segments[index]? = some segment) (noElement : ¬ classifier.IsElementTag segment) :
    (∃ tag, PropertyTag.ofName? (String.ofList segment.name) = some tag ∧
      TagValue.change? tag classifier.style segment.value = none ∧
      rejection = .malformedValue index tag) ∨
    (PropertyTag.ofName? (String.ofList segment.name) = none ∧
      classifier.ignoreInvalidTags = false ∧
      rejection = .unknownTag index (String.ofList segment.name)) := by
  cases offends with
  | duplicate own element _ _ =>
    cases Option.some.inj (found.symm.trans own)
    exact absurd element noElement
  | nameless isFirst _ =>
    cases Option.some.inj (found.symm.trans isFirst.found)
    exact absurd isFirst.element noElement
  | malformed own property unread =>
    cases Option.some.inj (found.symm.trans own)
    exact .inl ⟨_, property.2, unread, rfl⟩
  | unknown own _ noProperty strict =>
    cases Option.some.inj (found.symm.trans own)
    exact .inr ⟨noProperty, strict, rfl⟩

theorem Offends.found (offends : classifier.Offends segments index rejection) :
    ∃ segment, segments[index]? = some segment := by
  cases offends with
  | duplicate found | malformed found | unknown found => exact ⟨_, found⟩
  | nameless isFirst => exact ⟨_, isFirst.found⟩

/-- A tag breaks one rule at most. -/
theorem Offends.unique {other : Rejection} (offends : classifier.Offends segments index rejection)
    (offends' : classifier.Offends segments index other) : rejection = other := by
  obtain ⟨segment, found⟩ := offends.found
  by_cases element : classifier.IsElementTag segment
  · rcases offends.cases_of_element found element with
      ⟨first, firstTag, isFirst, earlier, rfl⟩ | ⟨isFirst, -, rfl⟩
    · rcases offends'.cases_of_element found element with
        ⟨first', firstTag', isFirst', -, rfl⟩ | ⟨isFirst', -⟩
      · obtain ⟨rfl, rfl⟩ := isFirst.unique isFirst'
        rfl
      · exact absurd (isFirst.unique isFirst').1 (Nat.ne_of_lt earlier)
    · rcases offends'.cases_of_element found element with
        ⟨first', firstTag', isFirst', earlier, -⟩ | ⟨-, -, rfl⟩
      · exact absurd (isFirst'.unique isFirst).1 (Nat.ne_of_lt earlier)
      · rfl
  · rcases offends.cases_of_not_element found element with
      ⟨tag, isProperty, -, rfl⟩ | ⟨noProperty, -, rfl⟩
    · rcases offends'.cases_of_not_element found element with
        ⟨tag', isProperty', -, rfl⟩ | ⟨noProperty, -⟩
      · rw [Option.some.inj (isProperty.symm.trans isProperty')]
      · cases isProperty.symm.trans noProperty
    · rcases offends'.cases_of_not_element found element with
        ⟨tag, isProperty, -⟩ | ⟨-, -, rfl⟩
      · cases isProperty.symm.trans noProperty
      · rfl

/-! ### What tags change -/

/-- The property tag that a tag of a block is, if it is one. An element tag is none, whatever it
is called. -/
def property? (classifier : Classifier) (segment : Segment) : Option PropertyTag :=
  match classifier.table.canonicalName? (String.ofList segment.name) with
  | some _ => none
  | none => PropertyTag.ofName? (String.ofList segment.name)

theorem property?_eq_some_iff {tag : PropertyTag} :
    classifier.property? segment = some tag ↔ classifier.IsPropertyTag segment tag := by
  unfold property? IsPropertyTag
  cases classifier.table.canonicalName? (String.ofList segment.name) with
  | none => simp
  | some tagType => simp

theorem property?_of_element (element : classifier.IsElementTag segment) :
    classifier.property? segment = none := by
  obtain ⟨tagType, stands⟩ := element
  rw [property?, stands]

theorem property?_of_not_element (noElement : ¬ classifier.IsElementTag segment) :
    classifier.property? segment = PropertyTag.ofName? (String.ofList segment.name) := by
  rw [property?]
  split
  · rename_i tagType stands
    exact absurd ⟨tagType, stands⟩ noElement
  · rfl

/-- What a tag of a block changes. -/
def change? (classifier : Classifier) (segment : Segment) : Option AttributeChange :=
  (classifier.property? segment).bind fun tag =>
    TagValue.change? tag classifier.style segment.value

/-- The attributes after the changes that the tags of a block make. -/
def attributesFrom (classifier : Classifier) (attributes : Attributes)
    (segments : List Segment) : Attributes :=
  (segments.filterMap classifier.change?).foldl AttributeChange.apply attributes

theorem attributesFrom_of_change? {change : AttributeChange}
    (changes : classifier.change? segment = some change) (attributes : Attributes)
    (segments : List Segment) :
    classifier.attributesFrom attributes (segment :: segments) =
      classifier.attributesFrom (AttributeChange.apply attributes change) segments := by
  rw [attributesFrom, List.filterMap_cons_some changes, List.foldl_cons, attributesFrom]

theorem attributesFrom_of_no_change (changesNot : classifier.change? segment = none)
    (attributes : Attributes) (segments : List Segment) :
    classifier.attributesFrom attributes (segment :: segments) =
      classifier.attributesFrom attributes segments := by
  rw [attributesFrom, List.filterMap_cons_none changesNot, attributesFrom]

/-! ### Taking in the tags -/

/-- What is known after some tags: the only element tag among them, with the type and the name that
it declares. -/
structure Knows (classifier : Classifier) (done : List Segment) (element : Option ElementTag) :
    Prop where
  found : classifier.Found done element
  declares : ∀ tag, element = some tag →
    ∃ segment, done[tag.index]? = some segment ∧ segment.Declares classifier.table tag

variable {done : List Segment} {element : Option ElementTag}

theorem Knows.concat_of_not (knows : classifier.Knows done element)
    (noElement : ¬ classifier.IsElementTag segment) :
    classifier.Knows (done ++ [segment]) element := by
  refine ⟨knows.found.concat_of_not noElement, fun tag isTag => ?_⟩
  obtain ⟨own, inDone, declares⟩ := knows.declares tag isTag
  have inside := (List.getElem?_eq_some_iff.mp inDone).1
  exact ⟨own, by rw [List.getElem?_append_left inside, inDone], declares⟩

theorem knows_concat_self (knows : classifier.Knows done none) {tagType : String}
    (stands : classifier.table.canonicalName? (String.ofList segment.name) = some tagType)
    {name : TagValue.ElementName} (named : TagValue.elementName? segment.value = some name) :
    classifier.Knows (done ++ [segment])
      (some ⟨done.length, String.ofList segment.name, tagType, name⟩) := by
  refine ⟨found_concat_self knows.found ⟨tagType, stands⟩ rfl rfl, fun tag isTag => ?_⟩
  cases isTag
  exact ⟨segment, List.getElem?_concat_length, stands, named⟩

/-- The element tag that is known is the first one, also when more tags follow. -/
theorem Knows.isFirstElement {tag : ElementTag} (knows : classifier.Knows done (some tag))
    (later : List Segment) :
    ∃ own, classifier.IsFirstElement (done ++ later) tag.index own ∧
      tag.written = String.ofList own.name ∧ tag.index < done.length := by
  obtain ⟨own, inDone, written, isElement, only⟩ := knows.found
  have inside := (List.getElem?_eq_some_iff.mp inDone).1
  refine ⟨own, ⟨?_, isElement, fun earlier other before inAll => ?_⟩, written, inside⟩
  · rw [List.getElem?_append_left inside, inDone]
  · rw [List.getElem?_append_left (Nat.lt_trans before inside)] at inAll
    exact only earlier other inAll (Nat.ne_of_lt before)

theorem Knows.not_isElementTag (knows : classifier.Knows done none) {later : List Segment}
    (inside : index < done.length) (found : (done ++ later)[index]? = some segment) :
    ¬ classifier.IsElementTag segment := by
  rw [List.getElem?_append_left inside] at found
  exact knows.found segment (List.mem_of_getElem? found)

/-- What becomes of the next tag. Either it breaks a rule and the tags are refused for it, or it
breaks none, and the others are taken in with what is known and changed then. -/
def DecidesNext (classifier : Classifier) (done : List Segment) (element : Option ElementTag)
    (attributes : Attributes) (segment : Segment) (segments : List Segment) : Prop :=
  (∃ rejection, classifier.Offends (done ++ segment :: segments) done.length rejection ∧
    classifier.collect done.length element attributes (segment :: segments) = .error rejection) ∨
  ((∀ rejection, ¬ classifier.Offends (done ++ segment :: segments) done.length rejection) ∧
    ∃ next, classifier.Knows (done ++ [segment]) next ∧
      classifier.collect done.length element attributes (segment :: segments) =
        classifier.collect (done.length + 1) next
          (classifier.attributesFrom attributes [segment]) segments)

theorem getElem?_append_cons_length (done : List Segment) (segment : Segment)
    (segments : List Segment) : (done ++ segment :: segments)[done.length]? = some segment := by
  rw [List.getElem?_append_right (Nat.le_refl _), Nat.sub_self, List.getElem?_cons_zero]

theorem decidesNext_of_element (knows : classifier.Knows done element) (attributes : Attributes)
    (isElement : classifier.IsElementTag segment) (segments : List Segment) :
    classifier.DecidesNext done element attributes segment segments := by
  have here := getElem?_append_cons_length done segment segments
  have noChange : classifier.change? segment = none := by
    rw [change?, property?_of_element isElement, Option.bind_none]
  have ⟨tagType, stands⟩ := isElement
  unfold DecidesNext
  rw [collect]
  simp only [stands]
  cases element with
  | some first =>
    obtain ⟨own, isFirst, written, earlier⟩ := knows.isFirstElement (segment :: segments)
    refine .inl ⟨_, .duplicate here isElement isFirst earlier, ?_⟩
    rw [← written]
  | none =>
    have isFirst : classifier.IsFirstElement (done ++ segment :: segments) done.length segment :=
      ⟨here, isElement, fun earlier other before => knows.not_isElementTag before⟩
    simp only
    cases named : TagValue.elementName? segment.value with
    | none => exact .inl ⟨_, .nameless isFirst named, rfl⟩
    | some name =>
      refine .inr ⟨fun rejection offends => ?_, _, knows_concat_self knows stands named, ?_⟩
      · rcases offends.cases_of_element here isElement with
          ⟨first, firstTag, isFirst', earlier, -⟩ | ⟨-, nameless, -⟩
        · exact Nat.ne_of_lt earlier (isFirst'.unique isFirst).1
        · cases named.symm.trans nameless
      · rw [attributesFrom_of_no_change noChange]
        rfl

theorem decidesNext_of_not_element (knows : classifier.Knows done element)
    (attributes : Attributes) (noElement : ¬ classifier.IsElementTag segment)
    (segments : List Segment) :
    classifier.DecidesNext done element attributes segment segments := by
  have here := getElem?_append_cons_length done segment segments
  have known := knows.concat_of_not noElement
  have reads : classifier.change? segment =
      (PropertyTag.ofName? (String.ofList segment.name)).bind fun tag =>
        TagValue.change? tag classifier.style segment.value := by
    rw [change?, property?_of_not_element noElement]
  have noType : classifier.table.canonicalName? (String.ofList segment.name) = none :=
    Option.eq_none_iff_forall_ne_some.mpr fun tagType stands => noElement ⟨tagType, stands⟩
  unfold DecidesNext
  rw [collect]
  simp only [noType]
  cases isProperty : PropertyTag.ofName? (String.ofList segment.name) with
  | some tag =>
    rw [isProperty, Option.bind_some] at reads
    simp only
    cases read : TagValue.change? tag classifier.style segment.value with
    | none => exact .inl ⟨_, .malformed here ⟨noType, isProperty⟩ read, rfl⟩
    | some change =>
      refine .inr ⟨fun rejection offends => ?_, element, known, ?_⟩
      · rcases offends.cases_of_not_element here noElement with
          ⟨own, isProperty', unread, -⟩ | ⟨noProperty, -⟩
        · cases isProperty.symm.trans isProperty'
          cases read.symm.trans unread
        · cases isProperty.symm.trans noProperty
      · rw [attributesFrom_of_change? (reads.trans read)]
        rfl
  | none =>
    rw [isProperty, Option.bind_none] at reads
    simp only
    cases ignored : classifier.ignoreInvalidTags with
    | false => exact .inl ⟨_, .unknown here noElement isProperty ignored, rfl⟩
    | true =>
      refine .inr ⟨fun rejection offends => ?_, element, known, ?_⟩
      · rcases offends.cases_of_not_element here noElement with
          ⟨own, isProperty', -⟩ | ⟨-, strict, -⟩
        · cases isProperty.symm.trans isProperty'
        · cases ignored.symm.trans strict
      · rw [attributesFrom_of_no_change reads]
        rfl

/-- Every next tag is decided, whatever follows it. -/
theorem decidesNext (knows : classifier.Knows done element) (attributes : Attributes)
    (segment : Segment) (segments : List Segment) :
    classifier.DecidesNext done element attributes segment segments := by
  by_cases isElement : classifier.IsElementTag segment
  · exact decidesNext_of_element knows attributes isElement segments
  · exact decidesNext_of_not_element knows attributes isElement segments

/-- The first tag that breaks a rule: it breaks one, and none before it does. -/
def FirstOffends (classifier : Classifier) (segments : List Segment) (index : Nat)
    (rejection : Rejection) : Prop :=
  classifier.Offends segments index rejection ∧
    ∀ earlier other, earlier < index → ¬ classifier.Offends segments earlier other

theorem FirstOffends.unique {other : Nat} {otherRejection : Rejection}
    (first : classifier.FirstOffends segments index rejection)
    (first' : classifier.FirstOffends segments other otherRejection) :
    rejection = otherRejection := by
  rcases Nat.lt_trichotomy index other with earlier | rfl | earlier
  · exact absurd first.1 (first'.2 index rejection earlier)
  · exact first.1.unique first'.1
  · exact absurd first'.1 (first.2 other otherRejection earlier)

/-- The tags that are left are refused for the first that breaks a rule, or all of them are taken
in. The tags before them broke none. -/
theorem collect_cases (knows : classifier.Knows done element)
    (clean : ∀ index rejection, index < done.length →
      ¬ classifier.Offends (done ++ segments) index rejection) (attributes : Attributes) :
    (∃ index rejection, classifier.FirstOffends (done ++ segments) index rejection ∧
      classifier.collect done.length element attributes segments = .error rejection) ∨
    ((∀ index rejection, ¬ classifier.Offends (done ++ segments) index rejection) ∧
      ∃ last, classifier.Knows (done ++ segments) last ∧
        classifier.collect done.length element attributes segments =
          .ok (last, classifier.attributesFrom attributes segments)) := by
  induction segments generalizing done element attributes with
  | nil =>
    rw [List.append_nil] at clean ⊢
    refine .inr ⟨fun index rejection offends => ?_, element, knows, rfl⟩
    obtain ⟨segment, found⟩ := offends.found
    exact clean index rejection (List.getElem?_eq_some_iff.mp found).1 offends
  | cons segment segments inductionHypothesis =>
    rcases decidesNext knows attributes segment segments with
      ⟨rejection, offends, refused⟩ | ⟨accepted, next, known, goesOn⟩
    · exact .inl ⟨done.length, rejection, ⟨offends, fun earlier other => clean earlier other⟩,
        refused⟩
    · have shift : done ++ segment :: segments = done ++ [segment] ++ segments := by
        rw [List.append_assoc, List.singleton_append]
      have count : (done ++ [segment]).length = done.length + 1 := List.length_append
      rw [shift] at clean accepted ⊢
      rw [goesOn, ← count]
      have goesOnCleanly : ∀ index rejection, index < (done ++ [segment]).length →
          ¬ classifier.Offends (done ++ [segment] ++ segments) index rejection := by
        intro index rejection inside
        rcases Nat.lt_or_eq_of_le (Nat.le_of_lt_succ (count ▸ inside)) with earlier | rfl
        · exact clean index rejection earlier
        · exact accepted rejection
      have folded : classifier.attributesFrom attributes (segment :: segments) =
          classifier.attributesFrom (classifier.attributesFrom attributes [segment]) segments := by
        rw [attributesFrom, ← List.singleton_append, List.filterMap_append, List.foldl_append]
        rfl
      rw [folded]
      exact inductionHypothesis known goesOnCleanly _

/-! ### The decision -/

/-- How a block with tags is decided. The first tag that breaks a rule has it refused; else it is
refused if it has no element tag; and else its only element tag gives its record the type and the
name, and its property tags give the attributes. -/
inductive Decided (classifier : Classifier) (tagged : TaggedText) (block : Block)
    (sourcePath : String) : Except Rejection ElementRecord → Prop where
  | refused {index : Nat} {rejection : Rejection}
      (first : classifier.FirstOffends tagged.segments index rejection) :
      Decided classifier tagged block sourcePath (.error rejection)
  | elementless
      (clean : ∀ index rejection, ¬ classifier.Offends tagged.segments index rejection)
      (noElement : ∀ segment ∈ tagged.segments, ¬ classifier.IsElementTag segment) :
      Decided classifier tagged block sourcePath (.error .missingElement)
  | accepted {index : Nat} {segment : Segment} {tagType : String} {name : TagValue.ElementName}
      (clean : ∀ index rejection, ¬ classifier.Offends tagged.segments index rejection)
      (found : tagged.segments[index]? = some segment)
      (stands : classifier.table.canonicalName? (String.ofList segment.name) = some tagType)
      (named : TagValue.elementName? segment.value = some name)
      (only : ∀ other otherTag, tagged.segments[other]? = some otherTag →
        classifier.IsElementTag otherTag → other = index) :
      Decided classifier tagged block sourcePath (.ok
        { declaredName := String.ofList name.declared
          declaration :=
            { startLine := block.startLine
              endLine := block.endLine
              sourcePath := sourcePath
              aliasName := name.title.map String.ofList
              tagType := tagType
              description := classifier.style.render tagged.description
              attributes := classifier.attributesFrom .empty tagged.segments } })

variable {tagged : TaggedText} {block : Block} {sourcePath : String}

theorem knows_nil : classifier.Knows [] none :=
  ⟨fun _ member => absurd member List.not_mem_nil, nofun⟩

/-- Classifying a block decides it. -/
theorem decided_classify (classifier : Classifier) (tagged : TaggedText) (block : Block)
    (sourcePath : String) :
    classifier.Decided tagged block sourcePath
      (classifier.classify tagged block sourcePath) := by
  have start : ∀ index rejection, index < ([] : List Segment).length →
      ¬ classifier.Offends ([] ++ tagged.segments) index rejection :=
    fun index _ inside => absurd inside (Nat.not_lt_zero index)
  rcases collect_cases knows_nil start .empty with
    ⟨index, rejection, first, refused⟩ | ⟨clean, last, knows, collected⟩
  · rw [List.length_nil] at refused
    rw [classify, refused]
    exact .refused first
  · rw [List.nil_append] at clean knows
    rw [List.length_nil] at collected
    rw [classify, collected]
    cases last with
    | none => exact .elementless clean knows.found
    | some tag =>
      obtain ⟨segment, found, declares⟩ := knows.declares tag rfl
      obtain ⟨-, -, -, -, only⟩ := knows.found
      refine .accepted clean found declares.tagType declares.name ?_
      intro other otherTag inside isElement
      exact Classical.byContradiction fun different =>
        only other otherTag inside different isElement

/-- A block is decided in one way. -/
theorem Decided.unique {result other : Except Rejection ElementRecord}
    (decided : classifier.Decided tagged block sourcePath result)
    (decided' : classifier.Decided tagged block sourcePath other) : result = other := by
  cases decided with
  | refused first =>
    cases decided' with
    | refused first' => rw [first.unique first']
    | elementless clean | accepted clean => exact absurd first.1 (clean _ _)
  | elementless clean noElement =>
    cases decided' with
    | refused first => exact absurd first.1 (clean _ _)
    | elementless => rfl
    | accepted _ found stands =>
      exact absurd ⟨_, stands⟩ (noElement _ (List.mem_of_getElem? found))
  | accepted clean found stands named only =>
    cases decided' with
    | refused first => exact absurd first.1 (clean _ _)
    | elementless _ noElement =>
      exact absurd ⟨_, stands⟩ (noElement _ (List.mem_of_getElem? found))
    | accepted _ found' stands' named' _ =>
      obtain rfl := only _ _ found' ⟨_, stands'⟩
      obtain rfl := Option.some.inj (found.symm.trans found')
      obtain rfl := Option.some.inj (stands.symm.trans stands')
      obtain rfl := Option.some.inj (named.symm.trans named')
      rfl

/-- What a refusal for a tag remembers: the tag, and before it the first element tag if the tag is
another one. -/
theorem Offends.marks_and_code (offends : classifier.Offends segments index rejection) :
    (∃ first firstTag, classifier.IsFirstElement segments first firstTag ∧ first < index ∧
      rejection.marks.map (·.1) = [first, index] ∧
      rejection.diagnostic.code = some .duplicateElementTag) ∨
    (rejection.marks.map (·.1) = [index] ∧
      ∃ code ∈ [Code.missingElementName, .unknownTag, .malformedValue],
        rejection.diagnostic.code = some code) := by
  cases offends with
  | duplicate _ _ isFirst earlier => exact .inl ⟨_, _, isFirst, earlier, rfl, rfl⟩
  | nameless => exact .inr ⟨rfl, .missingElementName, by decide, rfl⟩
  | malformed => exact .inr ⟨rfl, .malformedValue, by decide, rfl⟩
  | unknown => exact .inr ⟨rfl, .unknownTag, by decide, rfl⟩

/-- A block is decided by the first of its tags that breaks a rule, and by nothing else: the result
of classifying it is the one decision that the rules give. A refusal for a tag marks that tag, and
for a second element tag the first one too. -/
theorem classify_decided_by_first_offence (classifier : Classifier) (tagged : TaggedText)
    (block : Block) (sourcePath : String) :
    (∀ result, classifier.classify tagged block sourcePath = result ↔
      classifier.Decided tagged block sourcePath result) ∧
    ∀ index rejection, classifier.Offends tagged.segments index rejection →
      (∃ first firstTag, classifier.IsFirstElement tagged.segments first firstTag ∧
        first < index ∧ rejection.marks.map (·.1) = [first, index] ∧
        rejection.diagnostic.code = some .duplicateElementTag) ∨
      (rejection.marks.map (·.1) = [index] ∧
        ∃ code ∈ [Code.missingElementName, .unknownTag, .malformedValue],
          rejection.diagnostic.code = some code) := by
  refine ⟨fun result => ⟨?_, ?_⟩, fun index rejection => Offends.marks_and_code⟩
  · rintro rfl
    exact decided_classify classifier tagged block sourcePath
  · exact (decided_classify classifier tagged block sourcePath).unique

/-- The tags of a block that breaks two rules: the element tag has no name, and the last tag is
unknown. -/
theorem classify_decided_by_first_offence_standard :
    DocParser.standard.classifier.classify
        ⟨[], [⟨"param".toList, "x".toList, ⟨0, 7⟩⟩, ⟨"class".toList, "\n".toList, ⟨7, 14⟩⟩,
          ⟨"nope".toList, [], ⟨14, 19⟩⟩]⟩ ⟨1, 1, Span.between 0 0, []⟩ "lib.js" =
      .error (.missingName 1 "class") ∧
    DocParser.standard.classifier.FirstOffends
      [⟨"param".toList, "x".toList, ⟨0, 7⟩⟩, ⟨"class".toList, "\n".toList, ⟨7, 14⟩⟩,
        ⟨"nope".toList, [], ⟨14, 19⟩⟩] 1 (.missingName 1 "class") := by
  obtain ⟨decides, marks⟩ := classify_decided_by_first_offence DocParser.standard.classifier
    ⟨[], [⟨"param".toList, "x".toList, ⟨0, 7⟩⟩, ⟨"class".toList, "\n".toList, ⟨7, 14⟩⟩,
      ⟨"nope".toList, [], ⟨14, 19⟩⟩]⟩ ⟨1, 1, Span.between 0 0, []⟩ "lib.js"
  have refused : DocParser.standard.classifier.classify
      ⟨[], [⟨"param".toList, "x".toList, ⟨0, 7⟩⟩, ⟨"class".toList, "\n".toList, ⟨7, 14⟩⟩,
        ⟨"nope".toList, [], ⟨14, 19⟩⟩]⟩ ⟨1, 1, Span.between 0 0, []⟩ "lib.js" =
      .error (.missingName 1 "class") := by
    decide +kernel
  refine ⟨refused, ?_⟩
  cases (decides _).mp refused with
  | @refused index _ first =>
    obtain ⟨_, _, _, _, _, duplicate⟩ | ⟨marked, _⟩ := marks index _ first.1
    · cases duplicate
    · obtain rfl : 1 = index := (List.cons.inj marked).1
      exact first

end Classifier

end DocComments
