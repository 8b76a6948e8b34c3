/-
This file proves what the tags of an accepted block leave in its attributes.

Every property tag changes one attribute, which its name alone decides; three tags share the access
level. Parameters and examples are only ever added to, so their lists hold what their tags say, in
the order of the tags. Any other attribute is only ever set, so it holds what the last tag of its
key says, be it null. A key stands where the first of its tags put it. All of this is about the
changes that the tags make in turn, and element tags and unknown tags make none.
-/

import DocComments.Proofs.FirstOffence

namespace DocComments

/-! ### The attribute of a tag -/

/-- The attribute that a property tag sets or adds to. -/
def PropertyTag.key : PropertyTag → AttributeKey
  | .author => .author
  | .version => .version
  | .license => .license
  | .default => .default
  | .access => .access
  | .valtype => .valtype
  | .inherits => .inherits
  | .param => .params
  | .returns => .returns
  | .codeExample => .examples
  | .privateAccess => .access
  | .staticAccess => .access

namespace AttributeChange

/-- The attribute that is changed. -/
def key : AttributeChange → AttributeKey
  | .set key _ => key
  | .addParam _ => .params
  | .addExample _ => .examples

/-- The value of the attribute after the change. -/
def valueAfter : AttributeChange → Option AttributeValue → AttributeValue
  | .set _ value, _ => value
  | .addParam param, before => Attributes.withParam param before
  | .addExample sample, before => Attributes.withExample sample before

/-- The parameter that is added. -/
def param? : AttributeChange → Option Param
  | .addParam param => some param
  | _ => none

/-- The example that is added. -/
def example? : AttributeChange → Option Example
  | .addExample sample => some sample
  | _ => none

/-- A change that sets an attribute to a value, unless it is one of the lists: those are added
to. -/
def IsOrderly (change : AttributeChange) : Prop :=
  match change.key with
  | .params => ∃ param, change = .addParam param
  | .examples => ∃ sample, change = .addExample sample
  | key => ∃ value, change = .set key value

theorem apply_eq (attributes : Attributes) (change : AttributeChange) :
    apply attributes change =
      ⟨Entries.alter change.valueAfter attributes.entries change.key⟩ := by
  cases change with
  | set key value => rfl
  | addParam param => rfl
  | addExample sample => rfl

theorem param?_of_key_ne {change : AttributeChange} (other : change.key ≠ .params) :
    change.param? = none := by
  cases change with
  | addParam param => exact absurd rfl other
  | set | addExample => rfl

theorem example?_of_key_ne {change : AttributeChange} (other : change.key ≠ .examples) :
    change.example? = none := by
  cases change with
  | addExample sample => exact absurd rfl other
  | set | addParam => rfl

end AttributeChange

/-- What a property tag changes is decided by its name, and how by the attribute. -/
theorem TagValue.key_of_change? {tag : PropertyTag} {style : TextStyle} {value : List Char}
    {change : AttributeChange} (read : change? tag style value = some change) :
    change.key = tag.key ∧ change.IsOrderly := by
  cases tag with
  | author | version | license | default | returns | privateAccess | staticAccess =>
    cases read
    exact ⟨rfl, _, rfl⟩
  | access =>
    simp only [change?] at read
    split at read
    · cases read
    · cases read
      exact ⟨rfl, _, rfl⟩
  | valtype | inherits | param | codeExample =>
    obtain ⟨body, -, rfl⟩ := Option.map_eq_some_iff.mp read
    exact ⟨rfl, _, rfl⟩

/-! ### Changes one after the other -/

namespace Attributes

variable {key : AttributeKey} {changes : List AttributeChange}

theorem get?_apply_self (attributes : Attributes) (change : AttributeChange) :
    (change.apply attributes).get? change.key =
      some (change.valueAfter (attributes.get? change.key)) := by
  rw [AttributeChange.apply_eq]
  exact Entries.get?_alter_self _ _ _

theorem get?_apply_of_ne (attributes : Attributes) {change : AttributeChange}
    (other : change.key ≠ key) : (change.apply attributes).get? key = attributes.get? key := by
  rw [AttributeChange.apply_eq]
  exact Entries.get?_alter_of_ne _ _ other.symm

/-- Changes of other attributes do not touch an attribute. -/
theorem get?_foldl_of_ne (attributes : Attributes) (others : ∀ change ∈ changes, change.key ≠ key) :
    (changes.foldl AttributeChange.apply attributes).get? key = attributes.get? key := by
  induction changes generalizing attributes with
  | nil => rfl
  | cons change changes inductionHypothesis =>
    obtain ⟨other, others⟩ := List.forall_mem_cons.mp others
    rw [List.foldl_cons, inductionHypothesis _ others, get?_apply_of_ne attributes other]

/-- An attribute holds what the last change that sets it says. -/
theorem get?_foldl_of_last (attributes : Attributes) (before : List AttributeChange)
    (value : AttributeValue) (others : ∀ change ∈ changes, change.key ≠ key) :
    ((before ++ .set key value :: changes).foldl AttributeChange.apply attributes).get? key =
      some value := by
  rw [List.foldl_append, List.foldl_cons, get?_foldl_of_ne _ others]
  exact get?_apply_self _ (.set key value)

/-- The keys stand in the order of the first changes of them. -/
theorem keys_foldl (changes : List AttributeChange) :
    Entries.keys (changes.foldl AttributeChange.apply .empty).entries =
      (changes.map AttributeChange.key).eraseDups := by
  induction changes using List.reverseRecOn with
  | nil => rfl
  | append_singleton changes change inductionHypothesis =>
    rw [List.foldl_append, List.foldl_cons, List.foldl_nil, AttributeChange.apply_eq,
      Entries.keys_alter, inductionHypothesis, List.map_append, List.map_singleton,
      Entries.eraseDups_concat]

/-- What can be read off a list attribute grows by what each change of it adds. -/
theorem view_foldl {Item : Type} (key : AttributeKey) {view : Attributes → List Item}
    {item? : AttributeChange → Option Item}
    (ofKey : ∀ first second : Attributes, first.get? key = second.get? key →
      view first = view second)
    (grows : ∀ change attributes, change.IsOrderly → change.key = key →
      view (change.apply attributes) = view attributes ++ (item? change).toList)
    (addsHere : ∀ change, change.key ≠ key → item? change = none)
    (orderly : ∀ change ∈ changes, change.IsOrderly) (attributes : Attributes) :
    view (changes.foldl AttributeChange.apply attributes) =
      view attributes ++ changes.filterMap item? := by
  induction changes generalizing attributes with
  | nil => exact (List.append_nil _).symm
  | cons change changes inductionHypothesis =>
    obtain ⟨isOrderly, orderlyLater⟩ := List.forall_mem_cons.mp orderly
    have step : view (change.apply attributes) = view attributes ++ (item? change).toList := by
      by_cases same : change.key = key
      · exact grows change attributes isOrderly same
      · rw [ofKey _ _ (get?_apply_of_ne attributes same), addsHere change same]
        exact (List.append_nil _).symm
    rw [List.foldl_cons, inductionHypothesis orderlyLater, step, List.append_assoc,
      List.filterMap_cons]
    cases item? change <;> rfl

/-- The parameters are those that are added, in order. -/
theorem params_foldl (orderly : ∀ change ∈ changes, change.IsOrderly) :
    (changes.foldl AttributeChange.apply .empty).params =
      changes.filterMap AttributeChange.param? := by
  refine view_foldl .params (fun first second same => ?_) ?_
    (fun _ => AttributeChange.param?_of_key_ne) orderly .empty
  · rw [params, params, same]
  · intro change attributes isOrderly isParams
    rw [AttributeChange.IsOrderly, isParams] at isOrderly
    obtain ⟨param, rfl⟩ := isOrderly
    have added : ((AttributeChange.addParam param).apply attributes).get? .params =
        some (withParam param (attributes.get? .params)) := get?_apply_self attributes _
    rw [params, params, added]
    cases attributes.get? .params with
    | none => rfl
    | some value => cases value <;> rfl

/-- The examples are those that are added, in order. -/
theorem examples_foldl (orderly : ∀ change ∈ changes, change.IsOrderly) :
    (changes.foldl AttributeChange.apply .empty).examples =
      changes.filterMap AttributeChange.example? := by
  refine view_foldl .examples (fun first second same => ?_) ?_
    (fun _ => AttributeChange.example?_of_key_ne) orderly .empty
  · rw [examples, examples, same]
  · intro change attributes isOrderly isExamples
    rw [AttributeChange.IsOrderly, isExamples] at isOrderly
    obtain ⟨sample, rfl⟩ := isOrderly
    have added : ((AttributeChange.addExample sample).apply attributes).get? .examples =
        some (withExample sample (attributes.get? .examples)) := get?_apply_self attributes _
    rw [examples, examples, added]
    cases attributes.get? .examples with
    | none => rfl
    | some value => cases value <;> rfl

end Attributes

/-! ### The tags of an accepted block -/

namespace Classifier

variable {classifier : Classifier} {segments : List Segment} {segment : Segment}

/-- The attribute that a tag of a block sets or adds to, if it is a property tag. -/
def key? (classifier : Classifier) (segment : Segment) : Option AttributeKey :=
  (classifier.property? segment).map PropertyTag.key

/-- The tags of a block that are this property tag. -/
def tagsOf (classifier : Classifier) (tag : PropertyTag) (segments : List Segment) :
    List Segment :=
  segments.filter fun segment => classifier.property? segment == some tag

/-- All property tags take their values. -/
def ReadsAll (classifier : Classifier) (segments : List Segment) : Prop :=
  ∀ segment ∈ segments, ∀ tag, classifier.property? segment = some tag →
    (TagValue.change? tag classifier.style segment.value).isSome

theorem readsAll_of_clean
    (clean : ∀ index rejection, ¬ classifier.Offends segments index rejection) :
    classifier.ReadsAll segments := by
  intro segment member tag isProperty
  obtain ⟨index, found⟩ := List.mem_iff_getElem?.mp member
  rw [Option.isSome_iff_ne_none]
  exact fun unread => clean index _ (.malformed found (property?_eq_some_iff.mp isProperty) unread)

theorem ReadsAll.map_key (reads : classifier.ReadsAll segments) (member : segment ∈ segments) :
    (classifier.change? segment).map AttributeChange.key = classifier.key? segment := by
  rw [change?, key?]
  cases isProperty : classifier.property? segment with
  | none => rfl
  | some tag =>
    obtain ⟨change, read⟩ := Option.isSome_iff_exists.mp (reads segment member tag isProperty)
    rw [Option.bind_some, read, Option.map_some, Option.map_some,
      (TagValue.key_of_change? read).1]

theorem isOrderly_of_mem_changes {change : AttributeChange}
    (member : change ∈ segments.filterMap classifier.change?) : change.IsOrderly := by
  obtain ⟨segment, -, changes⟩ := List.mem_filterMap.mp member
  obtain ⟨tag, -, read⟩ := Option.bind_eq_some_iff.mp changes
  exact (TagValue.key_of_change? read).2

/-- The tags of one kind give one item each, where no other tag has their key. -/
theorem ReadsAll.map_tagsOf (reads : classifier.ReadsAll segments) {Item : Type}
    {tag : PropertyTag} {read? : TextStyle → List Char → Option Item}
    {add : Item → AttributeChange} {item? : AttributeChange → Option Item}
    (adds : ∀ style value, TagValue.change? tag style value = (read? style value).map add)
    (isItem : ∀ item, item? (add item) = some item)
    (noItem : ∀ change, change.key ≠ tag.key → item? change = none)
    (onlyTag : ∀ other : PropertyTag, other.key = tag.key → other = tag) :
    (classifier.tagsOf tag segments).map (fun segment => read? classifier.style segment.value) =
      ((segments.filterMap classifier.change?).filterMap item?).map some := by
  induction segments with
  | nil => rfl
  | cons segment segments inductionHypothesis =>
    obtain ⟨readsHere, readsLater⟩ := List.forall_mem_cons.mp reads
    have later := inductionHypothesis readsLater
    rw [tagsOf] at later ⊢
    rw [List.filterMap_cons]
    cases isProperty : classifier.property? segment with
    | none =>
      simp only [change?, isProperty, Option.bind_none]
      rw [List.filter_cons_of_neg (by simp [isProperty]), later]
    | some own =>
      obtain ⟨change, read⟩ := Option.isSome_iff_exists.mp (readsHere own isProperty)
      simp only [change?, isProperty, Option.bind_some, read]
      by_cases same : own = tag
      · subst same
        rw [List.filter_cons_of_pos (by simp [isProperty]), List.map_cons, later]
        rw [adds] at read
        obtain ⟨item, isRead, rfl⟩ := Option.map_eq_some_iff.mp read
        rw [List.filterMap_cons_some (isItem item), List.map_cons, isRead]
      · have other : change.key ≠ tag.key := by
          rw [(TagValue.key_of_change? read).1]
          exact mt (onlyTag own) same
        rw [List.filter_cons_of_neg (by simp [isProperty, same]), later,
          List.filterMap_cons_none (noItem change other)]

theorem ReadsAll.exists_change (reads : classifier.ReadsAll segments) (member : segment ∈ segments)
    {key : AttributeKey} (ofKey : classifier.key? segment = some key) :
    ∃ tag change, classifier.property? segment = some tag ∧
      TagValue.change? tag classifier.style segment.value = some change ∧
      classifier.change? segment = some change ∧ change.key = key := by
  obtain ⟨tag, isProperty, sameKey⟩ := Option.map_eq_some_iff.mp ofKey
  obtain ⟨change, read⟩ := Option.isSome_iff_exists.mp (reads segment member tag isProperty)
  refine ⟨tag, change, isProperty, read, ?_, (TagValue.key_of_change? read).1.trans sameKey⟩
  rw [change?, isProperty, Option.bind_some, read]

theorem key_of_mem_changes {key : AttributeKey} (reads : classifier.ReadsAll segments)
    (others : ∀ segment ∈ segments, classifier.key? segment ≠ some key) :
    ∀ change ∈ segments.filterMap classifier.change?, change.key ≠ key := by
  intro change member same
  obtain ⟨segment, inside, changes⟩ := List.mem_filterMap.mp member
  refine others segment inside ?_
  rw [← reads.map_key inside, changes, Option.map_some, same]

theorem filterMap_change?_filter (classifier : Classifier) (segments : List Segment) :
    (segments.filter fun segment => (classifier.property? segment).isSome).filterMap
        classifier.change? = segments.filterMap classifier.change? := by
  rw [List.filterMap_filter]
  refine List.filterMap_congr fun segment _ => ?_
  rw [change?]
  cases classifier.property? segment <;> rfl

variable {tagged : TaggedText} {block : Block} {sourcePath : String} {record : ElementRecord}

/-- In an accepted block no tag breaks a rule, and the attributes are what the tags change. -/
theorem clean_of_classify (classified : classifier.classify tagged block sourcePath = .ok record) :
    (∀ index rejection, ¬ classifier.Offends tagged.segments index rejection) ∧
      record.declaration.attributes = classifier.attributesFrom .empty tagged.segments := by
  have decided := decided_classify classifier tagged block sourcePath
  rw [classified] at decided
  cases decided with
  | accepted clean => exact ⟨clean, rfl⟩

/-- The attributes of an accepted block. Its parameters are what its `param` tags say, one for each
tag in the order of the tags, and so are its examples. Any other attribute holds what the last tag
of its key says. An attribute is there if and only if a tag has its key, and the keys stand in the
order of their first tags. Two accepted blocks with the same property tags have the same
attributes, whatever other tags they have. -/
theorem attributes_follow_tags
    (classified : classifier.classify tagged block sourcePath = .ok record) :
    (classifier.tagsOf .param tagged.segments).map
        (fun segment => TagValue.param? classifier.style segment.value) =
      record.declaration.attributes.params.map some ∧
    (classifier.tagsOf .codeExample tagged.segments).map
        (fun segment => TagValue.example? classifier.style segment.value) =
      record.declaration.attributes.examples.map some ∧
    (∀ key, key ≠ .params → key ≠ .examples → ∀ before segment after,
      tagged.segments = before ++ segment :: after → classifier.key? segment = some key →
      (∀ later ∈ after, classifier.key? later ≠ some key) →
      ∃ tag value, classifier.property? segment = some tag ∧
        TagValue.change? tag classifier.style segment.value = some (.set key value) ∧
        record.declaration.attributes.get? key = some value) ∧
    (∀ key, record.declaration.attributes.contains key = true ↔
      ∃ segment ∈ tagged.segments, classifier.key? segment = some key) ∧
    Entries.keys record.declaration.attributes.entries =
      (tagged.segments.filterMap classifier.key?).eraseDups ∧
    (∀ others otherBlock otherPath other,
      classifier.classify others otherBlock otherPath = .ok other →
      (others.segments.filter fun segment => (classifier.property? segment).isSome) =
        (tagged.segments.filter fun segment => (classifier.property? segment).isSome) →
      other.declaration.attributes = record.declaration.attributes) := by
  obtain ⟨clean, attributes⟩ := clean_of_classify classified
  have reads := readsAll_of_clean clean
  have orderly := fun change => @isOrderly_of_mem_changes classifier tagged.segments change
  have keys : Entries.keys record.declaration.attributes.entries =
      (tagged.segments.filterMap classifier.key?).eraseDups := by
    rw [attributes, attributesFrom, Attributes.keys_foldl, List.map_filterMap]
    exact congrArg _ (List.filterMap_congr fun segment member => reads.map_key member)
  refine ⟨?_, ?_, ?_, fun key => ?_, keys, ?_⟩
  · rw [attributes, attributesFrom, Attributes.params_foldl orderly]
    exact reads.map_tagsOf (fun _ _ => rfl) (fun _ => rfl)
      (fun _ => AttributeChange.param?_of_key_ne) (fun other => by cases other <;> decide)
  · rw [attributes, attributesFrom, Attributes.examples_foldl orderly]
    exact reads.map_tagsOf (fun _ _ => rfl) (fun _ => rfl)
      (fun _ => AttributeChange.example?_of_key_ne) (fun other => by cases other <;> decide)
  · intro key notParams notExamples before segment after split ofKey others
    obtain ⟨tag, change, isProperty, read, changes, sameKey⟩ :=
      reads.exists_change (split ▸ List.mem_append_right _ List.mem_cons_self) ofKey
    obtain ⟨value, rfl⟩ : ∃ value, change = .set key value := by
      cases change with
      | set own value => exact ⟨value, by rw [← sameKey]; rfl⟩
      | addParam => exact absurd sameKey.symm notParams
      | addExample => exact absurd sameKey.symm notExamples
    refine ⟨tag, value, isProperty, read, ?_⟩
    rw [attributes, attributesFrom, split, List.filterMap_append,
      List.filterMap_cons_some changes]
    refine Attributes.get?_foldl_of_last _ _ _ (key_of_mem_changes ?_ others)
    exact fun later inside => reads later (split ▸ List.mem_append_right _
      (List.mem_cons_of_mem _ inside))
  · rw [Attributes.contains, Attributes.get?, Entries.get?_isSome_iff, keys, List.mem_eraseDups,
      List.mem_filterMap]
  · intro others otherBlock otherPath other otherClassified same
    obtain ⟨-, otherAttributes⟩ := clean_of_classify otherClassified
    rw [attributes, otherAttributes, attributesFrom, attributesFrom, ← filterMap_change?_filter,
      same, filterMap_change?_filter]

/-- A block that sets its access level twice and has two parameters, with its element tag and an
unknown tag between them. -/
theorem attributes_follow_tags_mixed :
    ∃ tagged record,
      (tagged.segments.map fun segment =>
        (String.ofList segment.name, String.ofList segment.value)) =
        [("access", "protected"), ("param", "x"), ("class", "A"), ("private", ""), ("nope", ""),
          ("return", "a sum"), ("param", "y")] ∧
      classify ⟨.builtin, true, ⟨none⟩⟩ tagged ⟨1, 1, Span.between 0 0, []⟩ "lib.js" =
        .ok record ∧
      record.declaration.attributes.get? .access = some (.text "private") ∧
      record.declaration.attributes.get? .returns = some .null ∧
      record.declaration.attributes.params.map some =
        [TagValue.param? ⟨none⟩ "x".toList, TagValue.param? ⟨none⟩ "y".toList] ∧
      Entries.keys record.declaration.attributes.entries = [.access, .params, .returns] := by
  have classified : classify ⟨.builtin, true, ⟨none⟩⟩
      ⟨[], [⟨"access".toList, "protected".toList, ⟨0, 0⟩⟩, ⟨"param".toList, "x".toList, ⟨0, 0⟩⟩,
        ⟨"class".toList, "A".toList, ⟨0, 0⟩⟩, ⟨"private".toList, [], ⟨0, 0⟩⟩,
        ⟨"nope".toList, [], ⟨0, 0⟩⟩, ⟨"return".toList, "a sum".toList, ⟨0, 0⟩⟩,
        ⟨"param".toList, "y".toList, ⟨0, 0⟩⟩]⟩
      ⟨1, 1, Span.between 0 0, []⟩ "lib.js" =
      .ok ⟨"A", ⟨1, 1, "lib.js", none, "class", "", ⟨[(.access, .text "private"),
        (.params, .params [⟨"x", none, false, none, ""⟩, ⟨"y", none, false, none, ""⟩]),
        (.returns, .null)]⟩⟩⟩ := by
    decide +kernel
  obtain ⟨params, -, last, -, keys, -⟩ := attributes_follow_tags classified
  have access := last .access nofun nofun
    [⟨"access".toList, "protected".toList, ⟨0, 0⟩⟩, ⟨"param".toList, "x".toList, ⟨0, 0⟩⟩,
      ⟨"class".toList, "A".toList, ⟨0, 0⟩⟩] _ _ rfl (by decide +kernel) (by decide +kernel)
  obtain ⟨tag, value, isPrivate, changes, holdsPrivate⟩ := access
  obtain rfl : PropertyTag.privateAccess = tag := Option.some.inj isPrivate
  cases changes
  refine ⟨_, _, by decide +kernel, classified, holdsPrivate, rfl, ?_, keys.trans ?_⟩
  · rw [← params]
    rfl
  · decide +kernel

end Classifier

end DocComments
