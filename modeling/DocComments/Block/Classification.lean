/-
This file makes a record of the tags of a block.

A tag whose name is a tag type or an alias of one is an element tag and gives the block its
element; otherwise it may be a property tag, which changes the attributes; otherwise it is
unknown. A block must have exactly one element tag. The first tag that breaks a rule decides
how the block is refused, and unknown tags break a rule only if they are not to be ignored. A
refusal remembers the tags it is about, so that they can be pointed at in the source.
-/

import DocComments.Block.Scanner
import DocComments.Block.Segment
import DocComments.Diagnostic
import DocComments.Element.Record
import DocComments.TagType.Table
import DocComments.TagValue.ElementName
import DocComments.TagValue.Property

namespace DocComments

/-- A refused block: what is wrong, and remarks on tags by their number in the block. -/
structure Rejection where
  diagnostic : Diagnostic
  marks : List (Nat × String)
deriving DecidableEq, Repr

namespace Rejection

/-- Two element tags in one block. -/
def duplicateElement (firstIndex : Nat) (first : String) (index : Nat) (name : String) :
    Rejection :=
  ⟨.plain .duplicateElementTag
      s!"doc block declares more than one element: `@{first}` and `@{name}`"
      (some "document each element in its own doc block"),
    [(firstIndex, "first element tag"), (index, "second element tag")]⟩

/-- An element tag without a name. -/
def missingName (index : Nat) (name : String) : Rejection :=
  ⟨.plain .missingElementName s!"element tag `@{name}` has no name"
      (some s!"write the element name after the tag: `@{name} name`"),
    [(index, "name expected after this tag")]⟩

/-- A property tag with a value that it does not take, as a diagnostic. -/
def malformedDiagnostic (tag : PropertyTag) : Diagnostic :=
  .plain .malformedValue s!"malformed value for `@{tag.name}`" (some s!"expected `{tag.usage}`")

/-- A property tag with a value that it does not take. -/
def malformedValue (index : Nat) (tag : PropertyTag) : Rejection :=
  ⟨malformedDiagnostic tag, [(index, "malformed value")]⟩

/-- A tag that is neither an element tag nor a property tag. -/
def unknownTag (index : Nat) (name : String) : Rejection :=
  ⟨.plain .unknownTag s!"unknown tag `@{name}`"
      (some "set `ignore_invalid_tags = true` to drop unknown tags"),
    [(index, "unknown tag")]⟩

/-- Tags, but no element tag among them. -/
def missingElement : Rejection :=
  ⟨.plain .missingElementTag "doc block has tags but no element tag"
      (some "add an element tag such as `@function name`"), []⟩

/-- The label of a whole block. -/
def blockLabel (span : Span) : Label :=
  ⟨span, "in this doc block", true⟩

/-- The diagnostic with labels for the block and for the tags that have a place in the
source. -/
def locate (rejection : Rejection) (block : Span) (places : List Span) : Diagnostic :=
  rejection.marks.foldl (fun diagnostic mark =>
    match places[mark.1]? with
    | some span => diagnostic.addLabel ⟨span, mark.2, false⟩
    | none => diagnostic) (rejection.diagnostic.addLabel (blockLabel block))

end Rejection

/-- How tags are classified. -/
structure Classifier where
  table : TagTable
  ignoreInvalidTags : Bool
  style : TextStyle

/-- The element tag of a block: its number, its name as written, the type it stands for, and
the name of the element. -/
structure ElementTag where
  index : Nat
  written : String
  tagType : String
  name : TagValue.ElementName

namespace Classifier

/-- Takes in the tags from number `index` on, after an element tag and attributes that were
found before. -/
def collect (classifier : Classifier) :
    Nat → Option ElementTag → Attributes → List Segment →
      Except Rejection (Option ElementTag × Attributes)
  | _, element, attributes, [] => .ok (element, attributes)
  | index, element, attributes, segment :: segments =>
    let name := String.ofList segment.name
    match classifier.table.canonicalName? name with
    | some tagType =>
      match element with
      | some first => .error (.duplicateElement first.index first.written index name)
      | none =>
        match TagValue.elementName? segment.value with
        | none => .error (.missingName index name)
        | some elementName =>
          collect classifier (index + 1) (some ⟨index, name, tagType, elementName⟩) attributes
            segments
    | none =>
      match PropertyTag.ofName? name with
      | some tag =>
        match TagValue.change? tag classifier.style segment.value with
        | none => .error (.malformedValue index tag)
        | some change =>
          collect classifier (index + 1) element (AttributeChange.apply attributes change)
            segments
      | none =>
        if classifier.ignoreInvalidTags then
          collect classifier (index + 1) element attributes segments
        else
          .error (.unknownTag index name)

/-- The record of a block with these tags. -/
def classify (classifier : Classifier) (tagged : TaggedText) (block : Block)
    (sourcePath : String) : Except Rejection ElementRecord :=
  match classifier.collect 0 none .empty tagged.segments with
  | .error rejection => .error rejection
  | .ok (none, _) => .error .missingElement
  | .ok (some element, attributes) =>
    .ok
      { declaredName := String.ofList element.name.declared
        declaration :=
          { startLine := block.startLine
            endLine := block.endLine
            sourcePath := sourcePath
            aliasName := element.name.title.map String.ofList
            tagType := element.tagType
            description := classifier.style.render tagged.description
            attributes := attributes } }

end Classifier

end DocComments
