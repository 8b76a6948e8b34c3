/-
This file proves that attributes can be read again after they were written.

A value is read by the kind that its key asks for, while writing does not show the kind. So what
was written is read as it was only if every value is of the kind of its key. The attributes of a
block are of that shape because every property tag sets its own key to a value of the right kind
and parameters and examples are added to lists of their own; and so are attributes that were read,
as the reader makes a value of the kind that it was asked for.
-/

import DocComments.Attribute.Data
import DocComments.Proofs.Declarations
import DocComments.Proofs.JsonText

namespace DocComments

/-! ### Kinds of values -/

/-- The kinds of values that attributes take. -/
inductive ValueKind where
  | text
  | type
  | returns
  | params
  | examples
deriving DecidableEq, Repr

/-- The kind of value that an attribute takes. -/
def AttributeKey.kind : AttributeKey → ValueKind
  | .access => .text
  | .author => .text
  | .default => .text
  | .license => .text
  | .version => .text
  | .valtype => .type
  | .inherits => .type
  | .returns => .returns
  | .params => .params
  | .examples => .examples

namespace ValueKind

/-- Whether a value is of a kind. All but the lists may be null. -/
def takes : ValueKind → AttributeValue → Bool
  | .text, .text _ => true
  | .text, .null => true
  | .type, .type _ => true
  | .type, .null => true
  | .returns, .returns _ => true
  | .returns, .null => true
  | .params, .params _ => true
  | .examples, .examples _ => true
  | _, _ => false

/-- Reads a value of a kind. -/
def read? : ValueKind → Datum → Option AttributeValue
  | .text, datum => (Datum.orNull? Datum.toText? datum).map .ofText?
  | .type, datum => (Datum.orNull? TypeRef.ofDatum? datum).map .ofType?
  | .returns, datum => (Datum.orNull? ReturnValue.ofDatum? datum).map .ofReturn?
  | .params, datum =>
    (Datum.orNull? (Datum.toList? Param.ofDatum?) datum).map fun values =>
      .params (values.getD [])
  | .examples, datum =>
    (Datum.orNull? (Datum.toList? Example.ofDatum?) datum).map fun values =>
      .examples (values.getD [])

end ValueKind

theorem AttributeValue.ofDatum?_eq (key : AttributeKey) (datum : Datum) :
    ofDatum? key datum = key.kind.read? datum := by
  cases key <;> rfl

/-- Attributes of which every key stands once, with a value of its kind. -/
structure Attributes.WellShaped (attributes : Attributes) : Prop where
  distinct : (Entries.keys attributes.entries).Nodup
  takes : ∀ entry ∈ attributes.entries, entry.1.kind.takes entry.2 = true

/-! ### Reading what was written -/

@[simp] theorem Datum.toText?_text (value : String) : (text value).toText? = some value := rfl

@[simp] theorem Datum.toBool?_boolean (value : Bool) : (boolean value).toBool? = some value := rfl

@[simp] theorem Datum.toRecord?_table (names : List String) (required : Nat)
    (fields : List (String × Datum)) :
    (table fields).toRecord? names required = some fields := rfl

@[simp] theorem Datum.orNull?_toText?_ofOption (value : Option String) :
    orNull? toText? (ofOption value) = some value := by
  cases value <;> rfl

theorem Datum.orNull?_of_ne_null {Value : Type} {read : Datum → Option Value} {datum : Datum}
    {value : Value} (isRead : read datum = some value) (notNull : datum ≠ null) :
    orNull? read datum = some (some value) := by
  unfold orNull?
  split
  · exact absurd rfl notNull
  · rw [isRead]
    rfl

/-- No name occurs twice among the fields that are written, so each is read from its own field. -/
theorem TypeRef.ofDatum?_toDatum (value : TypeRef) : ofDatum? value.toDatum = some value := by
  simp [toDatum, ofDatum?, readField?, fieldNamed?]

@[simp] theorem orNull?_ofDatum?_optionalTypeDatum (type : Option TypeRef) :
    Datum.orNull? TypeRef.ofDatum? (optionalTypeDatum type) = some type := by
  cases type with
  | none => rfl
  | some value => exact Datum.orNull?_of_ne_null value.ofDatum?_toDatum nofun

theorem Param.ofDatum?_toDatum (param : Param) : ofDatum? param.toDatum = some param := by
  simp [toDatum, ofDatum?, readField?, fieldNamed?]

theorem ReturnValue.ofDatum?_toDatum (value : ReturnValue) :
    ofDatum? value.toDatum = some value := by
  simp [toDatum, ofDatum?, readField?, fieldNamed?]

theorem Example.ofDatum?_toDatum (sample : Example) : ofDatum? sample.toDatum = some sample := by
  simp [toDatum, ofDatum?, readField?, fieldNamed?]

/-- A list is read item by item. -/
theorem Datum.toList?_map {Value : Type} {read : Datum → Option Value} {write : Value → Datum}
    (inverse : ∀ value, read (write value) = some value) (values : List Value) :
    toList? read (array (values.map write)) = some values := by
  show (values.map write).mapM read = some values
  induction values with
  | nil => rfl
  | cons value values inductionHypothesis =>
    rw [List.map_cons, List.mapM_cons, inverse, inductionHypothesis]
    rfl

/-- A value is read as it was when it is asked for by its own kind. -/
theorem ValueKind.read?_toDatum {kind : ValueKind} {value : AttributeValue}
    (taken : kind.takes value = true) : kind.read? value.toDatum = some value := by
  unfold takes at taken
  split at taken
  · rfl
  · rfl
  · rename_i type
    rw [AttributeValue.toDatum, read?, Datum.orNull?_of_ne_null type.ofDatum?_toDatum nofun]
    rfl
  · rfl
  · rename_i value
    rw [AttributeValue.toDatum, read?, Datum.orNull?_of_ne_null value.ofDatum?_toDatum nofun]
    rfl
  · rfl
  · rename_i params
    rw [AttributeValue.toDatum, read?, Datum.orNull?_of_ne_null
      (Datum.toList?_map Param.ofDatum?_toDatum params) nofun]
    rfl
  · rename_i samples
    rw [AttributeValue.toDatum, read?, Datum.orNull?_of_ne_null
      (Datum.toList?_map Example.ofDatum?_toDatum samples) nofun]
    rfl
  · cases taken

theorem AttributeKey.ofName?_name (key : AttributeKey) : ofName? key.name = some key := by
  cases key <;> rfl

namespace Attributes

/-- Setting an attribute that is not there puts it at the end. -/
theorem set_of_notMem {attributes : Attributes} {key : AttributeKey}
    (missing : key ∉ Entries.keys attributes.entries) (value : AttributeValue) :
    attributes.set key value = ⟨attributes.entries ++ [(key, value)]⟩ := by
  rw [set, Entries.set, Entries.alter_of_notMem _ missing]

/-- The entries that were written are read and set one after the other. -/
theorem foldlM_written (before : Attributes) {entries : Entries AttributeKey AttributeValue}
    (distinct : (Entries.keys (before.entries ++ entries)).Nodup)
    (takes : ∀ entry ∈ entries, entry.1.kind.takes entry.2 = true) :
    (entries.map fun entry => (entry.1.name, entry.2.toDatum)).foldlM readEntry? before =
      some ⟨before.entries ++ entries⟩ := by
  induction entries generalizing before with
  | nil => simp
  | cons entry entries inductionHypothesis =>
    have missing : entry.1 ∉ Entries.keys before.entries := by
      rw [Entries.keys, List.map_append] at distinct
      exact fun member => (List.nodup_append.mp distinct).2.2 _ member _ List.mem_cons_self rfl
    -- Since the key is new, setting it keeps the order in which the entries were written.
    have isRead : readEntry? before (entry.1.name, entry.2.toDatum) =
        some ⟨before.entries ++ [entry]⟩ := by
      unfold readEntry?
      rw [AttributeKey.ofName?_name, Option.bind_eq_bind, Option.bind_some,
        AttributeValue.ofDatum?_eq, ValueKind.read?_toDatum (takes entry List.mem_cons_self),
        ← set_of_notMem missing]
      rfl
    rw [List.append_cons] at distinct ⊢
    rw [List.map_cons, List.foldlM_cons, isRead]
    exact inductionHypothesis ⟨before.entries ++ [entry]⟩ distinct fun other member =>
      takes other (List.mem_cons_of_mem _ member)

/-- Attributes of the right shape are read as they were written. -/
theorem ofDatum?_toDatum {attributes : Attributes} (shaped : attributes.WellShaped) :
    ofDatum? attributes.toDatum = some attributes :=
  foldlM_written .empty shaped.distinct shaped.takes

end Attributes

/-! ### Written attributes as texts -/

theorem Datum.plain_ofOption (value : Option String) : (ofOption value).Plain := by
  cases value with
  | none => exact .null
  | some value => exact .text value

theorem TypeRef.plain_toDatum (value : TypeRef) : value.toDatum.Plain := by
  refine .table ?_
  simp only [List.forall_mem_cons]
  exact ⟨.text _, Datum.plain_ofOption _, nofun⟩

theorem plain_optionalTypeDatum (type : Option TypeRef) : (optionalTypeDatum type).Plain := by
  cases type with
  | none => exact .null
  | some value => exact value.plain_toDatum

theorem Param.plain_toDatum (param : Param) : param.toDatum.Plain := by
  refine .table ?_
  simp only [List.forall_mem_cons]
  exact ⟨.text _, Datum.plain_ofOption _, .boolean _, plain_optionalTypeDatum _, .text _, nofun⟩

theorem ReturnValue.plain_toDatum (value : ReturnValue) : value.toDatum.Plain := by
  refine .table ?_
  simp only [List.forall_mem_cons]
  exact ⟨plain_optionalTypeDatum _, Datum.plain_ofOption _, nofun⟩

theorem Example.plain_toDatum (sample : Example) : sample.toDatum.Plain := by
  refine .table ?_
  simp only [List.forall_mem_cons]
  exact ⟨.text _, Datum.plain_ofOption _, .text _, .text _, nofun⟩

theorem AttributeValue.plain_toDatum (value : AttributeValue) : value.toDatum.Plain := by
  cases value with
  | null => exact .null
  | text value => exact .text value
  | type value => exact value.plain_toDatum
  | returns value => exact value.plain_toDatum
  | params values => exact .array (List.forall_mem_map.mpr fun param _ => param.plain_toDatum)
  | examples values =>
    exact .array (List.forall_mem_map.mpr fun sample _ => sample.plain_toDatum)

/-- Attributes hold no numbers, so they survive as JSON. -/
theorem Attributes.plain_toDatum (attributes : Attributes) : attributes.toDatum.Plain :=
  .table (List.forall_mem_map.mpr fun entry _ => entry.2.plain_toDatum)

/-! ### Where the shape comes from -/

namespace Attributes

theorem wellShaped_empty : empty.WellShaped :=
  ⟨List.nodup_nil, nofun⟩

/-- A change of one attribute to a value of its kind keeps the shape. -/
theorem WellShaped.alter {attributes : Attributes} (shaped : attributes.WellShaped)
    {key : AttributeKey} {change : Option AttributeValue → AttributeValue}
    (fits : ∀ before, key.kind.takes (change before) = true) :
    WellShaped ⟨Entries.alter change attributes.entries key⟩ := by
  refine ⟨Entries.nodup_keys_alter change shaped.distinct key, fun entry member => ?_⟩
  rcases Entries.mem_alter member with old | ⟨isKey, isChanged⟩
  · exact shaped.takes entry old
  · rw [isKey, isChanged]
    exact fits _

theorem WellShaped.set {attributes : Attributes} (shaped : attributes.WellShaped)
    {key : AttributeKey} {value : AttributeValue} (fits : key.kind.takes value = true) :
    (attributes.set key value).WellShaped :=
  shaped.alter fun _ => fits

theorem WellShaped.pushParam {attributes : Attributes} (shaped : attributes.WellShaped)
    (param : Param) : (attributes.pushParam param).WellShaped := by
  refine shaped.alter fun before => ?_
  unfold withParam
  split <;> rfl

theorem WellShaped.pushExample {attributes : Attributes} (shaped : attributes.WellShaped)
    (sample : Example) : (attributes.pushExample sample).WellShaped := by
  refine shaped.alter fun before => ?_
  unfold withExample
  split <;> rfl

end Attributes

/-- The reader makes values of the kind that it is asked for. -/
theorem ValueKind.takes_of_read? {kind : ValueKind} {datum : Datum} {value : AttributeValue}
    (isRead : kind.read? datum = some value) : kind.takes value = true := by
  cases kind with
  | text =>
    obtain ⟨text, -, rfl⟩ := Option.map_eq_some_iff.mp isRead
    cases text <;> rfl
  | type =>
    obtain ⟨type, -, rfl⟩ := Option.map_eq_some_iff.mp isRead
    cases type <;> rfl
  | returns =>
    obtain ⟨returned, -, rfl⟩ := Option.map_eq_some_iff.mp isRead
    cases returned <;> rfl
  | params =>
    obtain ⟨params, -, rfl⟩ := Option.map_eq_some_iff.mp isRead
    rfl
  | examples =>
    obtain ⟨samples, -, rfl⟩ := Option.map_eq_some_iff.mp isRead
    rfl

namespace Attributes

theorem WellShaped.afterEntry {attributes later : Attributes} (shaped : attributes.WellShaped)
    {field : String × Datum} (isRead : attributes.readEntry? field = some later) :
    later.WellShaped := by
  obtain ⟨key, -, valued⟩ := Option.bind_eq_some_iff.mp isRead
  obtain ⟨value, valueRead, changed⟩ := Option.bind_eq_some_iff.mp valued
  rw [AttributeValue.ofDatum?_eq] at valueRead
  cases changed
  exact shaped.set (ValueKind.takes_of_read? valueRead)

theorem WellShaped.afterEntries {attributes last : Attributes}
    (shaped : attributes.WellShaped) {fields : List (String × Datum)}
    (folded : fields.foldlM Attributes.readEntry? attributes = some last) : last.WellShaped := by
  induction fields generalizing attributes with
  | nil =>
    cases folded
    exact shaped
  | cons field fields inductionHypothesis =>
    rw [List.foldlM_cons] at folded
    obtain ⟨later, isRead, rest⟩ := Option.bind_eq_some_iff.mp folded
    exact inductionHypothesis (shaped.afterEntry isRead) rest

/-- Attributes that are read are of the right shape. -/
theorem wellShaped_of_ofDatum? {datum : Datum} {attributes : Attributes}
    (isRead : ofDatum? datum = some attributes) : attributes.WellShaped := by
  obtain ⟨fields, -, folded⟩ := Option.bind_eq_some_iff.mp isRead
  exact wellShaped_empty.afterEntries folded

end Attributes

/-- A change that a property tag may make: it sets an attribute to a value of its kind, or it adds
to one of the lists. -/
def AttributeChange.fits : AttributeChange → Bool
  | .set key value => key.kind.takes value
  | .addParam _ => true
  | .addExample _ => true

/-- Every property tag makes a change that fits. -/
theorem TagValue.fits_of_change? {tag : PropertyTag} {style : TextStyle} {value : List Char}
    {change : AttributeChange} (read : change? tag style value = some change) :
    change.fits = true := by
  cases tag with
  | author | version | license | privateAccess | staticAccess =>
    cases read
    rfl
  | default =>
    cases read
    show ValueKind.text.takes (if _ then _ else _) = true
    split <;> rfl
  | access =>
    simp only [change?] at read
    split at read
    · cases read
    · cases read
      rfl
  | valtype | inherits | param | codeExample =>
    obtain ⟨body, -, rfl⟩ := Option.map_eq_some_iff.mp read
    rfl
  | returns =>
    cases read
    show ValueKind.returns.takes (.ofReturn? _) = true
    cases returnValue? style value <;> rfl

theorem Attributes.WellShaped.apply {attributes : Attributes} (shaped : attributes.WellShaped)
    {change : AttributeChange} (fits : change.fits = true) :
    (AttributeChange.apply attributes change).WellShaped := by
  cases change with
  | set key value => exact shaped.set fits
  | addParam param => exact shaped.pushParam param
  | addExample sample => exact shaped.pushExample sample

namespace Classifier

theorem wellShaped_of_collect {classifier : Classifier} {index : Nat}
    {known found : Option ElementTag} {attributes later : Attributes} {segments : List Segment}
    (shaped : attributes.WellShaped)
    (collected : classifier.collect index known attributes segments = .ok (found, later)) :
    later.WellShaped := by
  fun_induction collect classifier index known attributes segments with
  | case1 =>
    cases collected
    exact shaped
  | case2 => cases collected
  | case3 => cases collected
  | case4 index attributes segment segments name tagType isType elementName named
      inductionHypothesis => exact inductionHypothesis shaped collected
  | case5 => cases collected
  | case6 index known attributes segment segments name noType tag isProperty change read
      inductionHypothesis =>
    exact inductionHypothesis (shaped.apply (TagValue.fits_of_change? read)) collected
  | case7 index known attributes segment segments name noType noProperty ignored
      inductionHypothesis => exact inductionHypothesis shaped collected
  | case8 => cases collected

theorem wellShaped_of_classify {classifier : Classifier} {tagged : TaggedText} {block : Block}
    {sourcePath : String} {record : ElementRecord}
    (classified : classifier.classify tagged block sourcePath = .ok record) :
    record.declaration.attributes.WellShaped := by
  unfold classify at classified
  split at classified
  · cases classified
  · cases classified
  · rename_i element attributes collected
    cases classified
    exact wellShaped_of_collect Attributes.wellShaped_empty collected

end Classifier

/-- The elements of a source have attributes of the right shape. -/
theorem DocParser.wellShaped_of_parse {parser : DocParser} {sourcePath : String}
    {source : List Char} {elements : List ResolvedElement}
    (parsed : parser.parse sourcePath source = .ok elements) {element : ResolvedElement}
    (member : element ∈ elements) : element.record.declaration.attributes.WellShaped := by
  obtain ⟨block, -, tagged, classified⟩ := exists_classify_of_parseBlocks parsed member
  exact Classifier.wellShaped_of_classify classified

namespace Attributes

/-- Attributes of the right shape are read as they were written, with the keys in the same order,
and so they are from JSON texts in either layout. The elements of every source that is parsed have
attributes of that shape, and so have all attributes that were read. -/
theorem read_as_written :
    (∀ attributes : Attributes, attributes.WellShaped →
      ofDatum? attributes.toDatum = some attributes ∧
      (Json.read? (Json.compact attributes.toDatum).toList).bind ofDatum? = some attributes ∧
      (Json.read? (Json.pretty attributes.toDatum).toList).bind ofDatum? = some attributes) ∧
    (∀ (parser : DocParser) (sourcePath : String) (source : List Char)
      (elements : List ResolvedElement), parser.parse sourcePath source = .ok elements →
        ∀ element ∈ elements, element.record.declaration.attributes.WellShaped) ∧
    ∀ (datum : Datum) (attributes : Attributes), ofDatum? datum = some attributes →
      attributes.WellShaped := by
  refine ⟨fun attributes shaped => ⟨ofDatum?_toDatum shaped, ?_, ?_⟩,
    fun _ _ _ _ parsed _ => DocParser.wellShaped_of_parse parsed,
    fun _ _ => wellShaped_of_ofDatum?⟩
  · rw [Json.read?_of_spells (Json.spells_compact attributes.plain_toDatum), Option.bind_some,
      ofDatum?_toDatum shaped]
  · rw [Json.pretty, Json.read?_of_spells (Json.spells_indented attributes.plain_toDatum 0),
      Option.bind_some, ofDatum?_toDatum shaped]

/-- Attributes of a parsed block that hold null and a text with quotes in it, and attributes that
were read from other spellings than they are written in. -/
theorem read_as_written_standard :
    ∃ attributes others : Attributes,
      attributes.entries = [(.params, .params [⟨"x", some "\"1\"", false, some ⟨"B", some "B"⟩, ""⟩,
        ⟨"y", none, true, none, ""⟩]), (.returns, .null)] ∧
      DocParser.standard.parse "a.js"
          ("/** @function add\n  * @param x=\"1\" \x7b#B\x7d\n  * @return a sum\n" ++
            "  * @param y...\n  */").toList =
        .ok [⟨"add", ⟨"add", ⟨1, 5, "a.js", none, "function", "", attributes⟩⟩⟩] ∧
      attributes.WellShaped ∧
      ofDatum? attributes.toDatum = some attributes ∧
      (Json.read? (Json.compact attributes.toDatum).toList).bind ofDatum? = some attributes ∧
      (Json.read? (Json.pretty attributes.toDatum).toList).bind ofDatum? = some attributes ∧
      others.entries = [(.examples, .examples []), (.valtype, .type ⟨"int", none⟩)] ∧
      ofDatum? (.table [("example", .null), ("valtype", .text "int")]) = some others ∧
      others.WellShaped := by
  obtain ⟨written, parsed, isRead⟩ := read_as_written
  have declared : DocParser.standard.parse "a.js"
      ("/** @function add\n  * @param x=\"1\" \x7b#B\x7d\n  * @return a sum\n" ++
        "  * @param y...\n  */").toList =
      .ok [⟨"add", ⟨"add", ⟨1, 5, "a.js", none, "function", "", ⟨[(.params, .params
        [⟨"x", some "\"1\"", false, some ⟨"B", some "B"⟩, ""⟩, ⟨"y", none, true, none, ""⟩]),
        (.returns, .null)]⟩⟩⟩⟩] := by
    decide +kernel
  have shaped := parsed _ _ _ _ declared _ List.mem_cons_self
  obtain ⟨fromData, fromCompact, fromPretty⟩ := written _ shaped
  have others : ofDatum? (.table [("example", .null), ("valtype", .text "int")]) =
      some ⟨[(.examples, .examples []), (.valtype, .type ⟨"int", none⟩)]⟩ := rfl
  exact ⟨_, _, rfl, declared, shaped, fromData, fromCompact, fromPretty, rfl, others,
    isRead _ _ others⟩

end Attributes

end DocComments
