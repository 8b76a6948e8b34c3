/-
This file cuts the text of a block into its description and its tags.

Tags are marked: a search through the text yields markers in order, and some of them name a
tag. The description is everything before the first marker that does. From there on the text
is cut into segments, each of which runs from its marker to the start of the next marker that
names a tag, or to the end. Markers that name nothing are part of the text around them.
-/

import DocComments.Text.Bytes
import DocComments.Text.WhiteSpace

namespace DocComments

/-- What a search found: the characters of the marker, and those of the tag name if it names a
tag. -/
structure MarkerMatch where
  whole : Range
  name : Option Range
deriving DecidableEq, Repr

/-- A marker that names a tag. -/
structure Marker where
  whole : Range
  name : Range
deriving DecidableEq, Repr

/-- A search for markers in a text. -/
abbrev MarkerSearch := List Char → List MarkerMatch

/-- The markers of a text that name a tag, in order. -/
def MarkerSearch.markers (search : MarkerSearch) (text : List Char) : List Marker :=
  (search text).filterMap fun found => found.name.map fun name => ⟨found.whole, name⟩

/-- A tag of a block: its name, the text after its marker, and the characters of the block text
that it takes up, its marker included. -/
structure Segment where
  name : List Char
  value : List Char
  range : Range
deriving DecidableEq, Repr

/-- A block text cut into description and tags. -/
structure TaggedText where
  description : List Char
  segments : List Segment
deriving DecidableEq, Repr

/-- Where a segment ends: at the next marker, or at the end of the text. -/
def segmentStop (text : List Char) : List Marker → Nat
  | [] => text.length
  | next :: _ => next.whole.start

/-- The segments that the markers make of a text. -/
def segmentsOf (text : List Char) : List Marker → List Segment
  | [] => []
  | marker :: markers =>
    let stop := segmentStop text markers
    { name := marker.name.slice text
      value := Range.slice ⟨min marker.whole.stop stop, stop⟩ text
      range := ⟨marker.whole.start, stop⟩ } :: segmentsOf text markers

/-- Cuts a block text into description and tags. A text without tags is no documentation. -/
def MarkerSearch.cut? (search : MarkerSearch) (text : List Char) : Option TaggedText :=
  match search.markers text with
  | [] => none
  | first :: markers =>
    some ⟨Text.trim (text.take first.whole.start), segmentsOf text (first :: markers)⟩

/-- The place of a marker in the source, from its start to the end of the tag name, when the
text it was found in starts at byte `offset`. -/
def Marker.span (offset : Nat) (text : List Char) (marker : Marker) : Span :=
  Span.between (offset + Text.byteLength (text.take marker.whole.start))
    (offset + Text.byteLength (text.take marker.name.stop))

/-- The places of the markers that stand in a span of the source. -/
def MarkerSearch.spans (search : MarkerSearch) (source : List Char) (span : Span) : List Span :=
  match span.slice? source with
  | none => []
  | some text => (search.markers text).map (Marker.span span.start text)

end DocComments
