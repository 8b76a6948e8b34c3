/-
This file proves that every path that a source declares is made of proper segments: there is at
least one, and none is empty or has a dot or white space in it.

A declared name is the first word of a tag value, so there is no white space in it. Resolution
lets only well written names through, which have no empty segment after their leading dots, and
puts them below an entry of the history. So the invariant is that all paths of the history are
proper: a resolved path joins the segments of an entry and those of the name, and what stays of
the history are old entries and the new path.

Elements of a tree have beginnings of declared paths as their paths, so their names are proper
segments too, whether they are declared or only placeholders; and every beginning of a declared
path has its element.
-/

import DocComments.Proofs.Declarations

namespace DocComments

namespace Text

/-! ### Proper segments and paths -/

/-- A segment of a proper path: there is something in it, but no dot and no white space. -/
structure ProperSegment (segment : String) : Prop where
  nonempty : segment ≠ ""
  dotless : '.' ∉ segment.toList
  noSpace : ∀ c ∈ segment.toList, isWhiteSpace c = false

/-- A path that is made of proper segments, at least one, with dots between them. -/
def ProperPath (path : String) : Prop :=
  ∃ names, names ≠ [] ∧ (∀ name ∈ names, ProperSegment name) ∧ path = joinSegments names

theorem properPath_iff {path : String} :
    ProperPath path ↔ ∀ segment ∈ segments path, ProperSegment segment := by
  constructor
  · rintro ⟨names, nonempty, proper, rfl⟩
    rw [segments_joinSegments nonempty fun name member => (proper name member).dotless]
    exact proper
  · intro proper
    exact ⟨segments path, segments_ne_nil path, proper, (joinSegments_segments path).symm⟩

theorem mem_joinWith (separator : List Char) {pieces : List (List Char)} {piece : List Char}
    (member : piece ∈ pieces) {c : Char} (inside : c ∈ piece) :
    c ∈ joinWith separator pieces := by
  fun_induction joinWith separator pieces with
  | case1 => cases member
  | case2 only => exact List.mem_singleton.mp member ▸ inside
  | case3 first next others inductionHypothesis =>
    rcases List.mem_cons.mp member with rfl | later
    · exact List.mem_append_left _ (List.mem_append_left _ inside)
    · exact List.mem_append_right _ (inductionHypothesis later)

theorem mem_of_mem_segments {path segment : String} (member : segment ∈ segments path) {c : Char}
    (inside : c ∈ segment.toList) : c ∈ path.toList := by
  rw [← joinSegments_segments path, joinSegments, String.toList_ofList]
  exact mem_joinWith _ (List.mem_map_of_mem member) inside

/-- What stands after the leading dots of a well written name without white space is a proper
path. -/
theorem properPath_afterDots {name : String} (written : WellWritten name)
    (noSpace : ∀ c ∈ name.toList, isWhiteSpace c = false) : ProperPath (afterDots name) := by
  rw [properPath_iff]
  intro segment member
  refine ⟨wellWritten_iff.mp written segment member, dot_notMem_of_mem_segments member, ?_⟩
  intro c inside
  refine noSpace c ?_
  have inRest := mem_of_mem_segments member inside
  rw [afterDots, String.toList_ofList] at inRest
  exact (List.dropWhile_suffix _).subset inRest

theorem ProperPath.below {parent path : String} (above : ProperPath parent)
    (proper : ProperPath path) : ProperPath (parent ++ "." ++ path) := by
  rw [properPath_iff] at above proper ⊢
  intro segment member
  rw [segments_append_dot, List.mem_append] at member
  exact member.elim (above segment) (proper segment)

/-! ### Declared names -/

theorem isWhiteSpace_of_firstWord? {text word : List Char} (found : firstWord? text = some word)
    {c : Char} (member : c ∈ word) : isWhiteSpace c = false := by
  unfold firstWord? at found
  split at found
  · cases found
  · cases found
    have kept := List.mem_takeWhile_imp member
    simpa using kept

end Text

theorem TagValue.isWhiteSpace_of_elementName? {value : List Char} {name : ElementName}
    (read : elementName? value = some name) {c : Char} (member : c ∈ name.declared) :
    Text.isWhiteSpace c = false := by
  unfold elementName? at read
  split at read
  · obtain ⟨word, found, rfl⟩ := Option.map_eq_some_iff.mp read
    exact Text.isWhiteSpace_of_firstWord? found member
  · obtain ⟨word, found, rfl⟩ := Option.map_eq_some_iff.mp read
    exact Text.isWhiteSpace_of_firstWord? found member

theorem ElementRecord.IsOf.isWhiteSpace {record : ElementRecord} {classifier : Classifier}
    {sourcePath : String} {block : Block} {tagged : TaggedText}
    (isOf : record.IsOf classifier sourcePath block tagged) :
    ∀ c ∈ record.declaredName.toList, Text.isWhiteSpace c = false := by
  obtain ⟨segment, -, element, declares, -, name⟩ := isOf.tag
  intro c member
  rw [name, String.toList_ofList] at member
  exact TagValue.isWhiteSpace_of_elementName? declares.name member

/-! ### The history of a source -/

/-- A history in which every path is proper. -/
def History.Proper (history : History) : Prop :=
  ∀ path ∈ history.paths, Text.ProperPath path

/-- A name without white space gets a proper path, and the history stays proper. -/
theorem History.Proper.resolve {history later : History} (proper : history.Proper)
    {name path : String} (noSpace : ∀ c ∈ name.toList, Text.isWhiteSpace c = false)
    (resolved : history.resolve name = .ok (path, later)) :
    Text.ProperPath path ∧ later.Proper := by
  obtain ⟨written, reached, stands, rfl⟩ := of_resolve_eq_ok resolved
  have rest := Text.properPath_afterDots written noSpace
  have properPath : Text.ProperPath path := by
    cases dots : Text.leadingDots name with
    | zero =>
      rw [stands.absolute dots]
      rwa [Text.afterDots_of_absolute dots] at rest
    | succ entry =>
      obtain ⟨parent, found, rfl⟩ := stands.relative entry dots
      exact (proper parent (List.mem_of_getElem? found)).below rest
  refine ⟨properPath, fun other member => ?_⟩
  rcases List.mem_append.mp member with old | new
  · exact proper other (List.mem_of_mem_take old)
  · exact List.mem_singleton.mp new ▸ properPath

namespace DocParser

/-- Blocks that are parsed after a proper history declare proper paths. -/
theorem properPath_of_parseBlocks {parser : DocParser} {sourcePath : String}
    {source : List Char} {history : History} (proper : history.Proper) {blocks : List Block}
    {elements : List ResolvedElement}
    (parsed : parser.parseBlocks sourcePath source history blocks = .ok elements) :
    ∀ element ∈ elements, Text.ProperPath element.path := by
  induction blocks generalizing history elements with
  | nil =>
    cases parsed
    exact nofun
  | cons block blocks inductionHypothesis =>
    obtain ⟨own, later, others, step, rest, rfl⟩ := parseBlocks_cons_eq_ok_iff.mp parsed
    rcases parseBlock_eq_ok_iff.mp step with
      ⟨-, rfl, rfl⟩ | ⟨tagged, record, path, -, classified, resolved, rfl⟩
    · exact inductionHypothesis proper rest
    · have noSpace := (Classifier.isOf_of_classify classified).isWhiteSpace
      obtain ⟨properPath, properLater⟩ := proper.resolve noSpace resolved
      intro element member
      rcases List.mem_cons.mp member with rfl | inRest
      · exact properPath
      · exact inductionHypothesis properLater rest element inRest

theorem properPath_of_parse {parser : DocParser} {sourcePath : String} {source : List Char}
    {elements : List ResolvedElement} (parsed : parser.parse sourcePath source = .ok elements) :
    ∀ element ∈ elements, Text.ProperPath element.path := by
  have start : History.empty.Proper := fun path member => absurd member List.not_mem_nil
  exact properPath_of_parseBlocks start parsed

theorem properPath_of_mem_declared {parser : DocParser} {file : String × List Char}
    {entry : String × Declaration} (member : entry ∈ parser.declared file) :
    Text.ProperPath entry.1 := by
  unfold declared at member
  split at member
  · rename_i elements parsed
    obtain ⟨element, inside, rfl⟩ := List.mem_map.mp member
    exact properPath_of_parse parsed element inside
  · cases member

end DocParser

/-! ### The elements of a tree -/

namespace DocTree

/-- The path of an element is the beginning of a merged path, and its name is the last segment of
its own. -/
theorem exists_merge_of_mem_elements {merges : List (String × Declaration)} {element : Element}
    (member : element ∈ (empty.mergeAll merges).elements) :
    ∃ entry ∈ merges, Text.segments element.path <+: Text.segments entry.1 ∧
      element.name ∈ Text.segments element.path := by
  have present : ((empty.mergeAll merges).get? element.path).isSome := by
    rw [mem_elements_iff_get?.mp member, Option.isSome_some]
  rw [mergeAll_empty_eq] at member present
  obtain ⟨above, key, stands⟩ := (mem_elements_afterCalls _ element).mp member
  obtain ⟨rfl, -, -, -⟩ := stands.spec (wellPlaced_afterCalls _)
  obtain ⟨call, inside, start⟩ :=
    (isSome_findAt?_afterCalls _ (Text.segments_ne_nil element.path)).mp present
  obtain ⟨entry, inMerges, rfl⟩ := List.mem_map.mp inside
  refine ⟨entry, inMerges, start, ?_⟩
  rw [(get?_path_of_stands stands).1]
  exact List.mem_append_right _ (List.mem_singleton_self _)

/-- Every beginning of a merged path leads to an element. -/
theorem exists_element_of_beginning {merges : List (String × Declaration)}
    {entry : String × Declaration} (merged : entry ∈ merges) {names : List String}
    (nonempty : names ≠ []) (start : names <+: Text.segments entry.1) :
    ∃ above ∈ (empty.mergeAll merges).elements, above.path = Text.joinSegments names := by
  have dotless : ∀ name ∈ names, '.' ∉ name.toList := fun name member =>
    Text.dot_notMem_of_mem_segments (start.subset member)
  have cut := Text.segments_joinSegments nonempty dotless
  have present : ((empty.mergeAll merges).get? (Text.joinSegments names)).isSome := by
    rw [mergeAll_empty_eq, get?, cut, isSome_findAt?_afterCalls _ nonempty]
    exact ⟨_, List.mem_map_of_mem merged, start⟩
  obtain ⟨above, found⟩ := Option.isSome_iff_exists.mp present
  have path := path_of_get? found
  exact ⟨above, mem_elements_iff_get?.mpr (path.symm ▸ found), path⟩

end DocTree

/-- Every element of a parsed source has a path of proper segments: at least one, and none of
them empty or with a dot or white space. So in the tree of any run of sources every element,
declared or not, has a name of at least one character without white space, and every beginning of
a declared path is the path of an element. -/
theorem DocBuilder.parseSources_keeps_paths (parser : DocParser) :
    (∀ sourcePath source elements, parser.parse sourcePath source = .ok elements →
      ∀ element ∈ elements, Text.ProperPath element.path) ∧
    (∀ files, ∀ element ∈ (parseSources ⟨parser, .empty⟩ files).documentation.tree.elements,
      element.name ≠ "" ∧ (∀ c ∈ element.name.toList, Text.isWhiteSpace c = false) ∧
      (element.isDeclared = true → ∀ names, names ≠ [] →
        names <+: Text.segments element.path →
        ∃ above ∈ (parseSources ⟨parser, .empty⟩ files).documentation.tree.elements,
          above.path = Text.joinSegments names)) := by
  refine ⟨fun sourcePath source elements parsed => DocParser.properPath_of_parse parsed, ?_⟩
  intro files element member
  rw [tree_parseSources] at member ⊢
  obtain ⟨entry, merged, start, inPath⟩ := DocTree.exists_merge_of_mem_elements member
  obtain ⟨file, -, inFile⟩ := List.mem_flatMap.mp merged
  have proper := Text.properPath_iff.mp (DocParser.properPath_of_mem_declared inFile)
    element.name (start.subset inPath)
  refine ⟨proper.nonempty, proper.noSpace, fun isDeclared names nonempty beginning => ?_⟩
  obtain ⟨declaration, declared⟩ := Option.isSome_iff_exists.mp isDeclared
  exact DocTree.exists_element_of_beginning (DocTree.mem_merges_of_declaration member declared)
    nonempty beginning

end DocComments
