/-
This file traces what a tree declares back to where it was written.

Every element of a parsed source comes from one block of it: the block has exactly one element
tag, which gives the type and the name, the lines are those of the block, and the path is what
the name resolves to. Every declaration in a tree was merged there, so after a run of sources it
is a declaration of one of them. What holds of all blocks therefore holds of all declarations of
a tree, whatever mixture of sources made it.
-/

import DocComments.Proofs.BlockLines
import DocComments.Proofs.Gathering
import DocComments.Proofs.TreeWalk

namespace DocComments

/-! ### The element tag of a block -/

/-- A tag as the element tag of a record: its name stands for the type, and its value gives the
name. -/
structure Segment.Declares (segment : Segment) (table : TagTable) (element : ElementTag) :
    Prop where
  tagType : table.canonicalName? (String.ofList segment.name) = some element.tagType
  name : TagValue.elementName? segment.value = some element.name

namespace Classifier

/-- The element tag that is found was known before or is one of the tags taken in. -/
theorem declares_of_collect {classifier : Classifier} {index : Nat}
    {known : Option ElementTag} {attributes later : Attributes} {segments : List Segment}
    {element : ElementTag}
    (collected : classifier.collect index known attributes segments =
      .ok (some element, later)) :
    known = some element ∨ ∃ segment ∈ segments, segment.Declares classifier.table element := by
  fun_induction collect classifier index known attributes segments with
  | case1 index known attributes =>
    cases collected
    exact .inl rfl
  | case2 => cases collected
  | case3 => cases collected
  | case4 index attributes segment segments name tagType isType elementName named
      inductionHypothesis =>
    rcases inductionHypothesis collected with here | ⟨other, member, declares⟩
    · cases here
      exact .inr ⟨segment, List.mem_cons_self, isType, named⟩
    · exact .inr ⟨other, List.mem_cons_of_mem _ member, declares⟩
  | case5 => cases collected
  | case6 index known attributes segment segments name noType tag isProperty change read
      inductionHypothesis =>
    exact (inductionHypothesis collected).imp_right fun ⟨other, member, declares⟩ =>
      ⟨other, List.mem_cons_of_mem _ member, declares⟩
  | case7 index known attributes segment segments name noType noProperty ignored
      inductionHypothesis =>
    exact (inductionHypothesis collected).imp_right fun ⟨other, member, declares⟩ =>
      ⟨other, List.mem_cons_of_mem _ member, declares⟩
  | case8 => cases collected

end Classifier

/-- A record is of a block when it has the lines of the block and was written in this file, and
a tag of the block gives its type and its name. -/
structure ElementRecord.IsOf (record : ElementRecord) (classifier : Classifier)
    (sourcePath : String) (block : Block) (tagged : TaggedText) : Prop where
  startLine : record.declaration.startLine = block.startLine
  endLine : record.declaration.endLine = block.endLine
  sourcePath : record.declaration.sourcePath = sourcePath
  tag : ∃ segment ∈ tagged.segments, ∃ element, segment.Declares classifier.table element ∧
    record.declaration.tagType = element.tagType ∧
    record.declaredName = String.ofList element.name.declared

theorem Classifier.isOf_of_classify {classifier : Classifier} {tagged : TaggedText}
    {block : Block} {sourcePath : String} {record : ElementRecord}
    (classified : classifier.classify tagged block sourcePath = .ok record) :
    record.IsOf classifier sourcePath block tagged := by
  unfold classify at classified
  split at classified
  · cases classified
  · cases classified
  · rename_i element attributes collected
    cases classified
    obtain ⟨segment, member, declares⟩ :=
      (Classifier.declares_of_collect collected).resolve_left nofun
    exact ⟨rfl, rfl, rfl, segment, member, element, declares, rfl, rfl⟩

/-! ### The elements of a source -/

namespace DocParser

/-- The record of every element that blocks declare was made of the tags of one of them. -/
theorem exists_classify_of_parseBlocks {parser : DocParser} {sourcePath : String}
    {source : List Char} {history : History} {blocks : List Block}
    {elements : List ResolvedElement}
    (parsed : parser.parseBlocks sourcePath source history blocks = .ok elements)
    {element : ResolvedElement} (member : element ∈ elements) :
    ∃ block ∈ blocks, ∃ tagged,
      parser.classifier.classify tagged block sourcePath = .ok element.record := by
  induction blocks generalizing history elements with
  | nil =>
    cases parsed
    cases member
  | cons block blocks inductionHypothesis =>
    obtain ⟨own, later, others, step, rest, rfl⟩ := parseBlocks_cons_eq_ok_iff.mp parsed
    rcases List.mem_append.mp member with here | inRest
    · rcases parseBlock_eq_ok_iff.mp step with
        ⟨-, rfl, -⟩ | ⟨tagged, record, path, -, classified, -, rfl⟩
      · cases here
      · cases Option.mem_toList.mp here
        exact ⟨block, List.mem_cons_self, tagged, classified⟩
    · obtain ⟨other, inside, found⟩ := inductionHypothesis rest inRest
      exact ⟨other, List.mem_cons_of_mem _ inside, found⟩

/-- Every element that blocks declare comes from one of them. -/
theorem exists_block_of_parseBlocks {parser : DocParser} {sourcePath : String}
    {source : List Char} {history : History} {blocks : List Block}
    {elements : List ResolvedElement}
    (parsed : parser.parseBlocks sourcePath source history blocks = .ok elements)
    {element : ResolvedElement} (member : element ∈ elements) :
    ∃ block ∈ blocks, ∃ tagged,
      element.record.IsOf parser.classifier sourcePath block tagged := by
  obtain ⟨block, inside, tagged, classified⟩ := exists_classify_of_parseBlocks parsed member
  exact ⟨block, inside, tagged, Classifier.isOf_of_classify classified⟩

end DocParser

/-! ### The declarations of a tree -/

namespace DocTree

/-- The elements of a merged tree are those that their own paths lead to. -/
theorem mem_elements_iff_get? {merges : List (String × Declaration)} {element : Element} :
    element ∈ (empty.mergeAll merges).elements ↔
      (empty.mergeAll merges).get? element.path = some element := by
  rw [mergeAll_empty_eq]
  constructor
  · intro member
    obtain ⟨above, key, stands⟩ := (mem_elements_afterCalls _ element).mp member
    exact (get?_path_of_stands stands).2
  · intro found
    obtain ⟨above, key, -, stands⟩ := stands_of_get? found
    exact (mem_elements_afterCalls _ element).mpr ⟨above, key, stands⟩

/-- A path leads only to an element of that path. -/
theorem path_of_get? {merges : List (String × Declaration)} {path : String} {element : Element}
    (found : (empty.mergeAll merges).get? path = some element) : element.path = path := by
  rw [mergeAll_empty_eq] at found
  obtain ⟨above, key, segments, stands⟩ := stands_of_get? found
  exact Text.segments_injective ((get?_path_of_stands stands).1.trans segments.symm)

/-- What a tree declares was merged at that path. -/
theorem mem_merges_of_declaration {merges : List (String × Declaration)}
    {element : Element} (member : element ∈ (empty.mergeAll merges).elements)
    {declaration : Declaration} (declared : element.declaration = some declaration) :
    (element.path, declaration) ∈ merges := by
  rw [declaration_mergeAll merges (mem_elements_iff_get?.mp member)] at declared
  obtain ⟨entry, inside, own⟩ := List.mem_filterMap.mp (List.mem_of_getLast? declared)
  split at own
  · rename_i same
    cases own
    exact same ▸ inside
  · cases own

end DocTree

namespace DocBuilder

theorem tree_parseSources (parser : DocParser) (files : List (String × List Char)) :
    (parseSources ⟨parser, .empty⟩ files).documentation.tree =
      DocTree.empty.mergeAll (files.flatMap parser.declared) := by
  rw [parseSources_eq]
  rfl

/-- What the tree of a run declares is an element of one of the sources, which is then one of the
source files. -/
theorem exists_source_of_declaration {parser : DocParser} {files : List (String × List Char)}
    {element : Element}
    (member : element ∈ (parseSources ⟨parser, .empty⟩ files).documentation.tree.elements)
    {declaration : Declaration} (declared : element.declaration = some declaration) :
    ∃ file ∈ files, ∃ elements, parser.parse file.1 file.2 = .ok elements ∧
      (∃ own ∈ elements, own.path = element.path ∧ own.record.declaration = declaration) ∧
      file.1 ∈ (parseSources ⟨parser, .empty⟩ files).documentation.sourceFiles := by
  rw [tree_parseSources] at member
  obtain ⟨file, inFiles, inFile⟩ :=
    List.mem_flatMap.mp (DocTree.mem_merges_of_declaration member declared)
  have declares : parser.declaresAny file = true := by
    rw [DocParser.declaresAny, Bool.not_eq_true', List.isEmpty_eq_false_iff]
    exact List.ne_nil_of_mem inFile
  have listed : file.1 ∈ (parseSources ⟨parser, .empty⟩ files).documentation.sourceFiles := by
    rw [parseSources_eq]
    refine List.mem_append_right _ ?_
    exact List.mem_map_of_mem (List.mem_filter.mpr ⟨inFiles, declares⟩)
  rw [DocParser.declared] at inFile
  split at inFile
  · rename_i elements parsed
    obtain ⟨own, inElements, same⟩ := List.mem_map.mp inFile
    obtain ⟨samePath, sameDeclaration⟩ := Prod.mk.inj same
    exact ⟨file, inFiles, elements, parsed, ⟨own, inElements, samePath, sameDeclaration⟩, listed⟩
  · cases inFile

end DocBuilder

end DocComments
