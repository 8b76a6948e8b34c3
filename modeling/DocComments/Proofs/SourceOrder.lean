/-
This file proves that the order in which sources are taken does not matter to what is documented,
as long as no path is declared by two different sources.

Up to the order of siblings a tree is determined by the last declaration at each path: there is an
element wherever a declared path begins, and the names below it are those with which declared
paths go on. A source is parsed without regard to the others. If only one source declares a path,
its last declaration there is the last one of every run, in whatever order the sources come, also
if that source is taken twice. So trees made in different orders agree everywhere, although an
element that one source declares may be a placeholder for a while, and the lists made of them
differ only in the order of their elements.
-/

import DocComments.Proofs.CanonicalTypes
import DocComments.Proofs.ElementLists

namespace DocComments

/-! ### Trees with the same declarations -/

/-- Two elements agree when the same is declared of both and they have children of the same
names. -/
structure Element.Agrees (first second : Element) : Prop where
  declaration : first.declaration = second.declaration
  children : (Entries.keys first.children).Perm (Entries.keys second.children)

/-- Two trees agree when the same paths lead to elements in both, the elements agree, and the names
at the top are the same. -/
structure DocTree.Agrees (first second : DocTree) : Prop where
  elements : ∀ path, Option.Rel Element.Agrees (first.get? path) (second.get? path)
  roots : (Entries.keys first.roots).Perm (Entries.keys second.roots)

/-- The names of every level are different. -/
theorem Element.WellPlaced.nodup_keys_childrenAt {parent : Option String}
    {siblings : List (String × Element)} (ordered : Element.WellPlaced parent siblings)
    (names : List String) : (Entries.keys (Element.childrenAt names siblings)).Nodup := by
  induction names generalizing parent siblings with
  | nil =>
    obtain ⟨distinct, -, -⟩ := ordered
    exact distinct
  | cons name names inductionHypothesis =>
    rw [Element.childrenAt_cons, Element.childrenOf]
    cases found : Entries.get? siblings name with
    | none => exact inductionHypothesis (Element.wellPlaced_nil none)
    | some element => exact inductionHypothesis (ordered.inPlace (Entries.mem_of_get? found)).2

namespace DocTree

variable {first second : List (String × Declaration)}

/-- Runs with the same last declarations declare at the same paths. -/
theorem exists_merge_of_sameLast
    (sameLast : ∀ path, (mergedAt first path).getLast? = (mergedAt second path).getLast?)
    {entry : String × Declaration} (member : entry ∈ first) :
    ∃ other ∈ second, other.1 = entry.1 := by
  have declared := mergedAt_ne_nil_iff.mpr ⟨entry, member, rfl⟩
  have isSome : (mergedAt first entry.1).getLast?.isSome = true :=
    List.getLast?_isSome.mpr declared
  rw [sameLast] at isSome
  exact mergedAt_ne_nil_iff.mp (List.getLast?_isSome.mp isSome)

theorem exists_beginning_of_sameLast
    (sameLast : ∀ path, (mergedAt first path).getLast? = (mergedAt second path).getLast?)
    {names : List String} (begins : ∃ entry ∈ first, names <+: Text.segments entry.1) :
    ∃ entry ∈ second, names <+: Text.segments entry.1 := by
  obtain ⟨entry, member, start⟩ := begins
  obtain ⟨other, otherMember, samePath⟩ := exists_merge_of_sameLast sameLast member
  exact ⟨other, otherMember, samePath ▸ start⟩

theorem mem_keys_childrenAt_mergeAll {merges : List (String × Declaration)}
    {names : List String} {name : String} :
    name ∈ Entries.keys (Element.childrenAt names (empty.mergeAll merges).roots) ↔
      ∃ entry ∈ merges, names ++ [name] <+: Text.segments entry.1 := by
  rw [keys_childrenAt_mergeAll, List.mem_eraseDups, nextMerged, List.mem_filterMap]
  simp only [nextSegment?_eq_some_iff]

/-- Every level has the same names. -/
theorem perm_keys_childrenAt
    (sameLast : ∀ path, (mergedAt first path).getLast? = (mergedAt second path).getLast?)
    (names : List String) :
    (Entries.keys (Element.childrenAt names (empty.mergeAll first).roots)).Perm
      (Entries.keys (Element.childrenAt names (empty.mergeAll second).roots)) := by
  have distinct (merges : List (String × Declaration)) :
      (Entries.keys (Element.childrenAt names (empty.mergeAll merges).roots)).Nodup := by
    rw [mergeAll_empty_eq]
    exact (wellPlaced_afterCalls _).nodup_keys_childrenAt names
  refine (List.perm_ext_iff_of_nodup (distinct first) (distinct second)).mpr fun name => ?_
  rw [mem_keys_childrenAt_mergeAll, mem_keys_childrenAt_mergeAll]
  exact ⟨exists_beginning_of_sameLast sameLast,
    exists_beginning_of_sameLast fun path => (sameLast path).symm⟩

theorem isSome_get?_mergeAll {merges : List (String × Declaration)} {path : String} :
    ((empty.mergeAll merges).get? path).isSome ↔
      ∃ entry ∈ merges, Text.segments path <+: Text.segments entry.1 := by
  rw [mergeAll_empty_eq, get?, isSome_findAt?_afterCalls _ (Text.segments_ne_nil path)]
  simp only [List.mem_map, exists_exists_and_eq_and, TreeCall.path]

/-- Trees agree when the last declaration at each path is the same. -/
theorem agrees_of_sameLast
    (sameLast : ∀ path, (mergedAt first path).getLast? = (mergedAt second path).getLast?) :
    (empty.mergeAll first).Agrees (empty.mergeAll second) := by
  refine ⟨fun path => ?_, perm_keys_childrenAt sameLast []⟩
  have sameSome : ((empty.mergeAll first).get? path).isSome ↔
      ((empty.mergeAll second).get? path).isSome := by
    rw [isSome_get?_mergeAll, isSome_get?_mergeAll]
    exact ⟨exists_beginning_of_sameLast sameLast,
      exists_beginning_of_sameLast fun path => (sameLast path).symm⟩
  cases found : (empty.mergeAll first).get? path with
  | none =>
    cases otherFound : (empty.mergeAll second).get? path with
    | none => exact .none
    | some other => simp [found, otherFound] at sameSome
  | some element =>
    cases otherFound : (empty.mergeAll second).get? path with
    | none => simp [found, otherFound] at sameSome
    | some other =>
      refine .some ⟨?_, ?_⟩
      · rw [declaration_mergeAll first found, declaration_mergeAll second otherFound, sameLast]
      · rw [← Element.childrenAt_of_findAt? found, ← Element.childrenAt_of_findAt? otherFound]
        exact perm_keys_childrenAt sameLast _

theorem Agrees.symm {first second : DocTree} (agrees : first.Agrees second) :
    second.Agrees first := by
  refine ⟨fun path => ?_, agrees.roots.symm⟩
  have related := agrees.elements path
  generalize first.get? path = found at related ⊢
  generalize second.get? path = other at related ⊢
  cases related with
  | none => exact .none
  | some sameElement => exact .some ⟨sameElement.declaration.symm, sameElement.children.symm⟩

end DocTree

/-! ### Lists of trees that agree -/

namespace ElementList

theorem mem_pathsOfType_mergeAll {merges : List (String × Declaration)} {tagType path : String} :
    path ∈ pathsOfType (DocTree.empty.mergeAll merges).elements tagType ↔
      ∃ element, (DocTree.empty.mergeAll merges).get? path = some element ∧
        element.tagType? = some tagType := by
  simp only [pathsOfType, List.mem_map, List.mem_filter, beq_iff_eq]
  constructor
  · rintro ⟨element, ⟨member, typed⟩, rfl⟩
    exact ⟨element, DocTree.mem_elements_iff_get?.mp member, typed⟩
  · rintro ⟨element, found, typed⟩
    have path := DocTree.path_of_get? found
    exact ⟨element, ⟨DocTree.mem_elements_iff_get?.mpr (path.symm ▸ found), typed⟩, path⟩

theorem nodup_pathsOfType_mergeAll (merges : List (String × Declaration)) (tagType : String) :
    (pathsOfType (DocTree.empty.mergeAll merges).elements tagType).Nodup := by
  have distinct : ((DocTree.empty.mergeAll merges).elements.map Element.path).Nodup := by
    rw [DocTree.mergeAll_empty_eq]
    exact DocTree.nodup_paths_elements _
  exact distinct.sublist (List.filter_sublist.map Element.path)

theorem mem_pathsOfType_of_agrees {first second : List (String × Declaration)}
    (agrees : (DocTree.empty.mergeAll first).Agrees (DocTree.empty.mergeAll second))
    {tagType path : String}
    (member : path ∈ pathsOfType (DocTree.empty.mergeAll first).elements tagType) :
    path ∈ pathsOfType (DocTree.empty.mergeAll second).elements tagType := by
  rw [mem_pathsOfType_mergeAll] at member ⊢
  obtain ⟨element, found, typed⟩ := member
  have related := agrees.elements path
  rw [found] at related
  generalize (DocTree.empty.mergeAll second).get? path = other at related ⊢
  cases related with
  | some sameElement =>
    refine ⟨_, rfl, ?_⟩
    rw [Element.tagType?, ← sameElement.declaration]
    exact typed

/-- Trees that agree have the same elements of each type. -/
theorem perm_pathsOfType {first second : List (String × Declaration)}
    (agrees : (DocTree.empty.mergeAll first).Agrees (DocTree.empty.mergeAll second))
    (tagType : String) :
    (pathsOfType (DocTree.empty.mergeAll first).elements tagType).Perm
      (pathsOfType (DocTree.empty.mergeAll second).elements tagType) :=
  (List.perm_ext_iff_of_nodup (nodup_pathsOfType_mergeAll first tagType)
    (nodup_pathsOfType_mergeAll second tagType)).mpr fun _ =>
      ⟨mem_pathsOfType_of_agrees agrees, mem_pathsOfType_of_agrees agrees.symm⟩

end ElementList

/-! ### Sources in another order -/

/-- Where all items that contribute anything contribute the same, the last value is the last one
of any of them. -/
theorem getLast?_flatMap_eq_some_iff {Item Value : Type} {pieces : Item → List Value}
    {items : List Item}
    (same : ∀ first ∈ items, ∀ second ∈ items, pieces first ≠ [] → pieces second ≠ [] →
      pieces first = pieces second) {value : Value} :
    (items.flatMap pieces).getLast? = some value ↔
      ∃ item ∈ items, (pieces item).getLast? = some value := by
  induction items using List.reverseRecOn with
  | nil => simp
  | append_singleton items item inductionHypothesis =>
    have sameBefore : ∀ first ∈ items, ∀ second ∈ items, pieces first ≠ [] →
        pieces second ≠ [] → pieces first = pieces second := fun first member second other =>
      same first (List.mem_append_left _ member) second (List.mem_append_left _ other)
    rw [List.flatMap_append, List.flatMap_singleton]
    by_cases empty : pieces item = []
    · rw [empty, List.append_nil, inductionHypothesis sameBefore]
      simp [or_and_right, exists_or, empty]
    · rw [List.getLast?_append_of_ne_nil _ empty]
      constructor
      · intro last
        exact ⟨item, List.mem_append_right _ (List.mem_singleton_self item), last⟩
      · rintro ⟨other, member, last⟩
        have nonempty : pieces other ≠ [] := by
          intro noPieces
          rw [noPieces] at last
          cases last
        rwa [same item (List.mem_append_right _ (List.mem_singleton_self item)) other member
          empty nonempty]

namespace DocParser

/-- The paths that a source declares. -/
def declaredPaths (parser : DocParser) (file : String × List Char) : List String :=
  (parser.declared file).map Prod.fst

/-- No two different sources declare the same path. -/
def Independent (parser : DocParser) (files : List (String × List Char)) : Prop :=
  ∀ first ∈ files, ∀ second ∈ files, first ≠ second →
    ∀ path ∈ parser.declaredPaths first, path ∉ parser.declaredPaths second

theorem mem_declaredPaths_of_mergedAt {parser : DocParser} {file : String × List Char}
    {path : String} (declared : DocTree.mergedAt (parser.declared file) path ≠ []) :
    path ∈ parser.declaredPaths file := by
  obtain ⟨entry, member, rfl⟩ := DocTree.mergedAt_ne_nil_iff.mp declared
  exact List.mem_map_of_mem member

/-- The last declaration at a path that independent sources make is the last one of the source
that declares the path. -/
theorem getLast?_mergedAt_eq_some_iff {parser : DocParser} {files : List (String × List Char)}
    (independent : parser.Independent files) {path : String} {declaration : Declaration} :
    (DocTree.mergedAt (files.flatMap parser.declared) path).getLast? = some declaration ↔
      ∃ file ∈ files,
        (DocTree.mergedAt (parser.declared file) path).getLast? = some declaration := by
  rw [DocTree.mergedAt, List.filterMap_flatMap]
  refine getLast?_flatMap_eq_some_iff fun first member second other declares alsoDeclares => ?_
  by_cases same : first = second
  · rw [same]
  · exact absurd (mem_declaredPaths_of_mergedAt alsoDeclares)
      (independent first member second other same path (mem_declaredPaths_of_mergedAt declares))

/-- Independent sources make the same last declarations in every order. -/
theorem getLast?_mergedAt_of_perm {parser : DocParser} {files others : List (String × List Char)}
    (independent : parser.Independent files) (reordered : files.Perm others) (path : String) :
    (DocTree.mergedAt (files.flatMap parser.declared) path).getLast? =
      (DocTree.mergedAt (others.flatMap parser.declared) path).getLast? := by
  have alsoIndependent : parser.Independent others := fun first member second other =>
    independent first (reordered.mem_iff.mpr member) second (reordered.mem_iff.mpr other)
  ext declaration
  rw [getLast?_mergedAt_eq_some_iff independent, getLast?_mergedAt_eq_some_iff alsoIndependent]
  exact exists_congr fun file => and_congr_left' reordered.mem_iff

end DocParser

namespace DocBuilder

/-- The types of all elements that a run declares are known, so its lists can be made. -/
theorem exists_lists_parseSources {types : Entries String TagType} {parser : DocParser}
    (built : TagTable.build types = .ok parser.classifier.table)
    (files : List (String × List Char)) :
    ∃ lists, (parseSources ⟨parser, .empty⟩ files).documentation.tree.lists
      parser.classifier.table = .ok lists := by
  refine DocTree.exists_lists built fun element member declaration declared => ?_
  obtain ⟨file, -, elements, parsed, ⟨resolved, inside, -, rfl⟩, -⟩ :=
    exists_source_of_declaration member declared
  exact (wellTyped_of_parse built parsed inside).1.known

/-- Sources of which no two different ones declare the same path may be taken in any order. The
trees agree: the same paths exist, with the same declarations and the same names of children. And
both have lists, the same ones in the same order, which differ at most in the order of their
elements. -/
theorem parseSources_in_any_order {types : Entries String TagType} {table : TagTable}
    {config : ParserConfig} {builder : DocBuilder} (built : TagTable.build types = .ok table)
    (accepted : ofConfig config table = .ok builder) {files others : List (String × List Char)}
    (independent : builder.parser.Independent files) (reordered : files.Perm others) :
    (builder.parseSources files).documentation.tree.Agrees
      (builder.parseSources others).documentation.tree ∧
    ∃ lists otherLists,
      (builder.parseSources files).documentation.tree.lists table = .ok lists ∧
      (builder.parseSources others).documentation.tree.lists table = .ok otherLists ∧
      List.Forall₂ ElementList.Alike lists otherLists := by
  obtain ⟨parser, parserAccepted, rfl⟩ := ofConfig_eq_ok_iff.mp accepted
  rw [← classifier_table_of_ofConfig parserAccepted] at built ⊢
  obtain ⟨lists, made⟩ := exists_lists_parseSources built files
  obtain ⟨otherLists, otherMade⟩ := exists_lists_parseSources built others
  rw [tree_parseSources] at made otherMade ⊢
  rw [tree_parseSources]
  have agrees := DocTree.agrees_of_sameLast
    (DocParser.getLast?_mergedAt_of_perm independent reordered)
  exact ⟨agrees, lists, otherLists, made, otherMade,
    DocTree.forall₂_alike_of_lists made otherMade (ElementList.perm_pathsOfType agrees)⟩

/-- A file that declares what is a placeholder for another file, which is taken once after and once
before it. The children of the element come in another order. -/
theorem parseSources_in_any_order_standard :
    TagTable.build builtinTypes = .ok .builtin ∧
    ofConfig .standard .builtin = .ok ⟨.standard, .empty⟩ ∧
    ∃ first second : String × List Char,
      first = ("a.js", "/** @pack A */\n/** @num .n */\n".toList) ∧
      second = ("b.js", "/** @class A.B */\n/** @num A.m.x */\n".toList) ∧
      DocParser.standard.Independent [first, second] ∧
      ∃ tree other : DocTree,
        (parseSources ⟨.standard, .empty⟩ [first, second]).documentation.tree = tree ∧
        (parseSources ⟨.standard, .empty⟩ [second, first]).documentation.tree = other ∧
        (tree.get? "A").map (fun element => Entries.keys element.children) =
          some ["n", "B", "m"] ∧
        (other.get? "A").map (fun element => Entries.keys element.children) =
          some ["B", "m", "n"] ∧
        tree.Agrees other ∧
        ∃ lists otherLists, tree.lists .builtin = .ok lists ∧
          other.lists .builtin = .ok otherLists ∧
          List.Forall₂ ElementList.Alike lists otherLists := by
  have accepted : ofConfig .standard .builtin = .ok ⟨.standard, .empty⟩ :=
    ofConfig_eq_ok_iff.mpr ⟨_, DocParser.ofConfig_standard, rfl⟩
  have independent : DocParser.standard.Independent
      [("a.js", "/** @pack A */\n/** @num .n */\n".toList),
        ("b.js", "/** @class A.B */\n/** @num A.m.x */\n".toList)] := by
    unfold DocParser.Independent
    decide +kernel
  obtain ⟨agrees, lists⟩ := parseSources_in_any_order TagTable.build_builtinTypes accepted
    independent (List.Perm.swap _ _ [])
  exact ⟨TagTable.build_builtinTypes, accepted, _, _, rfl, rfl, independent, _, _, rfl, rfl,
    by decide +kernel, by decide +kernel, agrees, lists⟩

end DocBuilder

end DocComments
