/-
This file proves that nothing of a text is lost when it is cut into description and tags.

A search yields matches from left to right which do not overlap. Some may be empty, and some name no
tag. A segment starts where a match that names a tag starts, and ends where the next such match
does; matches in between that name nothing are part of it. So the segments tile the text from the
start of the first one on: each starts where the one before ends, and the last one ends with the
text. A marker lies inside its segment, because the next one starts behind its end, and the value of
the tag is all that the marker leaves of the segment.

That matches come in this order is all that is asked of a search. The matches of every pattern do.
-/

import DocComments.Proofs.MatchOrder
import DocComments.Proofs.TagPlaces

namespace DocComments

/-! ### Ranges in order and ranges that tile -/

namespace Range

/-- Ranges of a text from left to right, of which none overlaps the one before. They may be
empty. -/
structure InOrder (text : List Char) (ranges : List Range) : Prop where
  ordered : ∀ range ∈ ranges, range.start ≤ range.stop
  inside : ∀ range ∈ ranges, range.stop ≤ text.length
  apart : ranges.Pairwise fun earlier later => earlier.stop ≤ later.start

/-- The ranges lead from one place to another, and each starts where the one before stops. -/
def Tile : Nat → List Range → Nat → Prop
  | first, [], last => first = last
  | first, range :: ranges, last =>
    range.start = first ∧ first ≤ range.stop ∧ Tile range.stop ranges last

variable {text : List Char} {range : Range} {ranges others : List Range} {first : Nat}

theorem InOrder.sublist (inOrder : InOrder text ranges) (sublist : others.Sublist ranges) :
    InOrder text others :=
  ⟨fun range member => inOrder.ordered range (sublist.subset member),
    fun range member => inOrder.inside range (sublist.subset member),
    inOrder.apart.sublist sublist⟩

theorem InOrder.tail (inOrder : InOrder text (range :: ranges)) : InOrder text ranges :=
  inOrder.sublist (List.sublist_cons_self range ranges)

/-- What ranges that tile a text to its end cover is the rest of the text. -/
theorem take_append_of_tile (tiles : Tile first ranges text.length) :
    text.take first ++ (ranges.map fun range => range.slice text).flatten = text := by
  induction ranges generalizing first with
  | nil =>
    obtain rfl : first = text.length := tiles
    rw [List.take_length, List.map_nil, List.flatten_nil, List.append_nil]
  | cons range ranges inductionHypothesis =>
    obtain ⟨rfl, ordered, rest⟩ := tiles
    rw [List.map_cons, List.flatten_cons, ← List.append_assoc, take_append_slice ordered,
      inductionHypothesis rest]

/-- A range is its first part and the rest of it. -/
theorem slice_append_slice {start middle stop : Nat} (before : start ≤ middle)
    (after : middle ≤ stop) (text : List Char) :
    slice ⟨start, middle⟩ text ++ slice ⟨middle, stop⟩ text = slice ⟨start, stop⟩ text := by
  have toMiddle := @take_append_slice ⟨start, middle⟩ before text
  have toStop := @take_append_slice ⟨middle, stop⟩ after text
  have atOnce := @take_append_slice ⟨start, stop⟩ (Nat.le_trans before after) text
  rw [← List.append_right_inj (text.take start), ← List.append_assoc, toMiddle, toStop, atOnce]

end Range

/-! ### Segments and their markers -/

variable {text : List Char} {marker : Marker} {markers : List Marker}

/-- A marker ends before the next one starts, and before the text does. -/
theorem stop_le_segmentStop
    (inOrder : Range.InOrder text ((marker :: markers).map Marker.whole)) :
    marker.whole.stop ≤ segmentStop text markers := by
  cases markers with
  | nil => exact inOrder.inside marker.whole List.mem_cons_self
  | cons next markers => exact List.rel_of_pairwise_cons inOrder.apart List.mem_cons_self

/-- The segments tile the text from the first marker on. -/
theorem tile_segmentsOf (inOrder : Range.InOrder text (markers.map Marker.whole)) :
    Range.Tile (segmentStop text markers) ((segmentsOf text markers).map Segment.range)
      text.length := by
  induction markers with
  | nil => rfl
  | cons marker markers inductionHypothesis =>
    have ordered := inOrder.ordered marker.whole List.mem_cons_self
    exact ⟨rfl, Nat.le_trans ordered (stop_le_segmentStop inOrder),
      inductionHypothesis inOrder.tail⟩

/-- A segment that belongs to a marker: it starts with the marker, and its value is what follows the
marker in it. -/
structure Marker.Heads (text : List Char) (marker : Marker) (segment : Segment) : Prop where
  name : segment.name = marker.name.slice text
  start : segment.range.start = marker.whole.start
  inside : marker.whole.stop ≤ segment.range.stop
  value : segment.range.slice text = marker.whole.slice text ++ segment.value

theorem heads_segmentsOf (inOrder : Range.InOrder text (markers.map Marker.whole)) :
    List.Forall₂ (Marker.Heads text) markers (segmentsOf text markers) := by
  induction markers with
  | nil => exact .nil
  | cons marker markers inductionHypothesis =>
    have ordered := inOrder.ordered marker.whole List.mem_cons_self
    have inside := stop_le_segmentStop inOrder
    refine .cons ⟨rfl, rfl, inside, ?_⟩ (inductionHypothesis inOrder.tail)
    simp only [Nat.min_eq_left inside]
    exact (Range.slice_append_slice ordered inside text).symm

namespace MarkerSearch

variable {search : MarkerSearch}

theorem inOrder_markers
    (inOrder : Range.InOrder text ((search text).map MarkerMatch.whole)) :
    Range.InOrder text ((search.markers text).map Marker.whole) := by
  refine inOrder.sublist ?_
  rw [markers]
  induction search text with
  | nil => exact .slnil
  | cons found others inductionHypothesis =>
    cases named : found.name with
    | none =>
      rw [List.filterMap_cons_none (by rw [named, Option.map_none])]
      exact inductionHypothesis.cons found.whole
    | some name =>
      rw [List.filterMap_cons_some (by rw [named, Option.map_some])]
      exact inductionHypothesis.cons_cons found.whole

theorem markers_eq_nil_iff :
    search.markers text = [] ↔ ∀ found ∈ search text, found.name = none := by
  rw [markers, List.filterMap_eq_nil_iff]
  simp only [Option.map_eq_none_iff]

end MarkerSearch

namespace Pattern

/-- The matches of a pattern come in order. -/
theorem inOrder_markers (pattern : Pattern) (text : List Char) :
    Range.InOrder text ((pattern.markers text).map MarkerMatch.whole) := by
  have within : ∀ found ∈ pattern.findAll text, found.Within 0 text.length := fun found =>
    within_of_mem_matchesFrom (Nat.zero_le _)
  rw [markers, List.map_map]
  refine ⟨List.forall_mem_map.mpr fun found member => (within found member).ordered,
    List.forall_mem_map.mpr fun found member => (within found member).before, ?_⟩
  exact List.pairwise_map.mpr ((pairwise_matchesFrom (Nat.zero_le _)).imp And.left)

/-- An `@` and perhaps the name of a tag, or any number of times the letter `x`. -/
def optionalName : Pattern :=
  { plan := .choice 2
      (.sequence (.set (.single '@'))
        (.sequence .empty
          (.choice 0 (.sequence (.group 1 (.set .nonSpace)) .empty) .empty)))
      (.loop 1 true (.set (.single 'x')))
    names := [(tagGroup, 1)] }

end Pattern

namespace MarkerSearch

variable {search : MarkerSearch}

/-- Nothing of a text is lost when it is cut. It is cut if and only if some match names a tag. Then
the segments tile the text from the first one on, so that the text before it and what they cover
make the text; what is before it is the description, trimmed; and there is one segment for each
match that names a tag, which starts with it and has what follows it for a value. -/
theorem cut?_loses_nothing (inOrder : Range.InOrder text ((search text).map MarkerMatch.whole)) :
    (search.cut? text = none ↔ ∀ found ∈ search text, found.name = none) ∧
    ∀ tagged, search.cut? text = some tagged →
      ∃ first others, tagged.segments = first :: others ∧
        Range.Tile first.range.start (tagged.segments.map Segment.range) text.length ∧
        text.take first.range.start ++
          (tagged.segments.map fun segment => segment.range.slice text).flatten = text ∧
        tagged.description = Text.trim (text.take first.range.start) ∧
        List.Forall₂ (Marker.Heads text) (search.markers text) tagged.segments := by
  have inOrder := inOrder_markers inOrder
  rw [← markers_eq_nil_iff, cut?]
  cases found : search.markers text with
  | nil => exact ⟨iff_of_true rfl rfl, nofun⟩
  | cons marker markers =>
    rw [found] at inOrder
    refine ⟨iff_of_false nofun nofun, ?_⟩
    rintro tagged ⟨⟩
    have tiles := tile_segmentsOf inOrder
    refine ⟨_, segmentsOf text markers, rfl, tiles, ?_, rfl, heads_segmentsOf inOrder⟩
    have whole := Range.take_append_of_tile tiles
    rwa [List.map_map] at whole

/-- Matches that are empty, and matches without the name of a tag, are part of the segments around
them. -/
theorem cut?_loses_nothing_optionalName :
    Pattern.read? "@(?P<tag>\\S)?|x*".toList = some .optionalName ∧
    ∃ tagged, Pattern.optionalName.markers.cut? "a @b xx@ @cx d".toList = some tagged ∧
      tagged.segments.map Segment.range = [⟨2, 9⟩, ⟨9, 14⟩] ∧
      "a ".toList ++ (tagged.segments.map fun segment =>
        segment.range.slice "a @b xx@ @cx d".toList).flatten = "a @b xx@ @cx d".toList := by
  have cut : Pattern.optionalName.markers.cut? "a @b xx@ @cx d".toList =
      some ⟨"a".toList, [⟨"b".toList, " xx@ ".toList, ⟨2, 9⟩⟩,
        ⟨"c".toList, "x d".toList, ⟨9, 14⟩⟩]⟩ := by
    decide +kernel
  obtain ⟨-, parts⟩ :=
    cut?_loses_nothing (Pattern.optionalName.inOrder_markers "a @b xx@ @cx d".toList)
  obtain ⟨first, others, segments, -, whole, -⟩ := parts _ cut
  cases segments
  exact ⟨rfl, _, cut, rfl, whole⟩

end MarkerSearch

end DocComments
