/-
This file proves that a builder only ever declares elements of types that its own table has, so
that its documentation can always be written out.

A name in a built table stands for a type of the table: either it is one, or it is an alias, and
aliases are indexed only for types that are there. Types stand for themselves and no alias is
called like one, so what a name stands for is never an alias in turn. No alias is indexed twice
either, so that a name stands for exactly the type which it calls, by its name or by an alias. The
type of an element is what the name of its element tag stands for. Therefore every look-up that the
lists of a tree ask for finds its type, and a built table answers those.
-/

import DocComments.Proofs.Declarations
import DocComments.Proofs.TableLookup

namespace DocComments

namespace TagTable

/-! ### What names stand for -/

/-- The name of a type in a table: it is there and stands for itself, and it is no alias. -/
structure IsCanonical (table : TagTable) (name : String) : Prop where
  known : name ∈ Entries.keys table.types
  itself : table.canonicalName? name = some name
  notAlias : name ∉ Entries.keys table.aliases

/-- A built table has the aliases of its types, and none of them is a type. -/
theorem aliases_of_build {types : Entries String TagType} {table : TagTable}
    (built : build types = .ok table) :
    table.types = types ∧ table.aliases = aliasPairs types ∧
      ∀ pair ∈ aliasPairs types, pair.1 ∉ Entries.keys types := by
  have indexed : indexAliases types =
      (aliasPairs types).foldlM (fun aliases pair => addAlias types pair.2 aliases pair.1) [] :=
    foldlM_aliases types types []
  rcases addAliases_cases types [] (aliasPairs types) List.nodup_nil with
    ⟨-, notTypes, passed⟩ | ⟨-, name, typeName, existing, -, failed⟩
  · rw [passed, List.nil_append] at indexed
    rw [build_of_indexed indexed] at built
    cases chains : checkChains ⟨types, aliasPairs types⟩ with
    | error error =>
      rw [chains] at built
      cases built
    | ok =>
      cases properties : checkProperties ⟨types, aliasPairs types⟩ with
      | error error =>
        rw [chains, properties] at built
        cases built
      | ok =>
        rw [chains, properties] at built
        obtain rfl : ⟨types, aliasPairs types⟩ = table := Except.ok.inj built
        exact ⟨rfl, rfl, notTypes⟩
  · rw [failed] at indexed
    rw [build, indexed] at built
    cases built

theorem isCanonical_of_mem {types : Entries String TagType} {table : TagTable}
    (built : build types = .ok table) {name : String}
    (member : name ∈ Entries.keys table.types) : table.IsCanonical name := by
  obtain ⟨rfl, aliases, notTypes⟩ := aliases_of_build built
  obtain ⟨definition, found⟩ := Entries.exists_get?_of_mem_keys member
  refine ⟨member, ?_, ?_⟩
  · rw [canonicalName?, get?, found]
  · rw [aliases]
    intro isAlias
    obtain ⟨pair, inside, rfl⟩ := List.mem_map.mp isAlias
    exact notTypes pair inside member

/-- Whatever a name stands for in a built table is a type of the table. -/
theorem isCanonical_of_canonicalName? {types : Entries String TagType} {table : TagTable}
    (built : build types = .ok table) {written name : String}
    (stands : table.canonicalName? written = some name) : table.IsCanonical name := by
  refine isCanonical_of_mem built ?_
  rw [canonicalName?] at stands
  cases found : table.get? written with
  | some definition =>
    rw [found] at stands
    cases stands
    exact Entries.mem_keys_of_get? found
  | none =>
    rw [found] at stands
    obtain ⟨rfl, aliases, -⟩ := aliases_of_build built
    have listed := Entries.mem_of_get? stands
    rw [aliases] at listed
    obtain ⟨entry, inside, inAliases⟩ := List.mem_flatMap.mp listed
    obtain ⟨other, -, same⟩ := List.mem_map.mp inAliases
    rw [← (Prod.mk.inj same).2]
    exact List.mem_map_of_mem inside

/-- A name calls a type of a map: it is the name of the type, or the type goes by it. -/
def Calls (types : Entries String TagType) (name typeName : String) : Prop :=
  typeName ∈ Entries.keys types ∧ (name = typeName ∨ GoesBy types typeName name)

theorem Calls.of_goesBy {types : Entries String TagType} {name typeName : String}
    (goesBy : GoesBy types typeName name) : Calls types name typeName := by
  refine ⟨?_, .inr goesBy⟩
  obtain ⟨definition, found, -⟩ := goesBy
  exact Entries.mem_keys_of_get? found

/-- A map from which a table was built has clear aliases, and the table has the map and its index
of them. -/
theorem aliasesClear_of_build {types : Entries String TagType} {table : TagTable}
    (proper : ProperTypes types) (built : build types = .ok table) :
    AliasesClear types ∧ table = ⟨types, aliasPairs types⟩ := by
  have refused {error : SettingsError} (failed : build types = .error error) : False := by
    rw [built] at failed
    cases failed
  rcases build_cases proper with
    ⟨fine, made⟩ | ⟨-, _, _, _, -, failed⟩ | ⟨-, -, _, -, failed⟩ | ⟨-, -, -, _, _, -, failed⟩
  · exact ⟨fine.1, Except.ok.inj (built.symm.trans made)⟩
  · exact (refused failed).elim
  · exact (refused failed).elim
  · exact (refused failed).elim

/-- The index has an alias exactly under the type that goes by it. -/
theorem get?_aliasPairs_eq_some_iff {types : Entries String TagType} (proper : ProperTypes types)
    (clear : AliasesClear types) {name typeName : String} :
    Entries.get? (aliasPairs types) name = some typeName ↔ GoesBy types typeName name := by
  rw [goesBy_iff_mem_aliasPairs proper]
  exact ⟨Entries.mem_of_get?, Entries.get?_of_mem ((aliasesClear_iff proper).mp clear).1⟩

/-- A name that a type goes by is no type, and so it is looked up among the aliases. -/
theorem canonicalName?_eq_some_iff {types : Entries String TagType} (proper : ProperTypes types)
    (clear : AliasesClear types) {name typeName : String} :
    canonicalName? ⟨types, aliasPairs types⟩ name = some typeName ↔ Calls types name typeName := by
  rw [canonicalName?, get?]
  by_cases known : name ∈ Entries.keys types
  · obtain ⟨definition, found⟩ := Entries.exists_get?_of_mem_keys known
    rw [found]
    constructor
    · intro same
      obtain rfl : name = typeName := Option.some.inj same
      exact ⟨known, .inl rfl⟩
    · rintro ⟨-, rfl | goesBy⟩
      · rfl
      · exact absurd known (clear.notTypes typeName name goesBy)
  · rw [Entries.get?_eq_none_iff.mpr known]
    refine (get?_aliasPairs_eq_some_iff proper clear).trans ⟨.of_goesBy, ?_⟩
    rintro ⟨isType, rfl | goesBy⟩
    · exact absurd isType known
    · exact goesBy

/-- In a built table a name stands for a type exactly if it calls the type, as its name or as one
of its aliases. It calls no other type, and the type stands for itself. So an alias is never a
type, and every alias of every type is found. -/
theorem canonicalName?_finds_called_type {types : Entries String TagType} {table : TagTable}
    (proper : ProperTypes types) (built : build types = .ok table) :
    table.types = types ∧
    (∀ name typeName, table.canonicalName? name = some typeName ↔ Calls types name typeName) ∧
    (∀ name first second, Calls types name first → Calls types name second → first = second) ∧
    (∀ name typeName, table.canonicalName? name = some typeName →
      table.canonicalName? typeName = some typeName) ∧
    (∀ typeName name, GoesBy types typeName name →
      name ∉ Entries.keys types ∧ table.canonicalName? name = some typeName) := by
  obtain ⟨clear, rfl⟩ := aliasesClear_of_build proper built
  have finds {name typeName : String} :
      canonicalName? ⟨types, aliasPairs types⟩ name = some typeName ↔ Calls types name typeName :=
    canonicalName?_eq_some_iff proper clear
  refine ⟨rfl, fun name typeName => finds, ?_, ?_, ?_⟩
  · intro name first second callsFirst callsSecond
    exact Option.some.inj ((finds.mpr callsFirst).symm.trans (finds.mpr callsSecond))
  · intro name typeName stands
    exact finds.mpr ⟨(finds.mp stands).1, .inl rfl⟩
  · intro typeName name goesBy
    exact ⟨clear.notTypes typeName name goesBy, finds.mpr (.of_goesBy goesBy)⟩

/-- In the built-in table an alias and the name of its type stand for the type. -/
theorem canonicalName?_finds_called_type_builtin :
    ProperTypes builtinTypes ∧ build builtinTypes = .ok .builtin ∧
      Calls builtinTypes "num" "number" ∧ builtin.canonicalName? "num" = some "number" ∧
      "num" ∉ Entries.keys builtinTypes ∧ builtin.canonicalName? "number" = some "number" := by
  have proper : ProperTypes builtinTypes := ⟨by decide, by decide⟩
  obtain ⟨-, stands, -, itself, aliases⟩ :=
    canonicalName?_finds_called_type proper build_builtinTypes
  obtain ⟨notType, found⟩ := aliases "number" "num" ⟨_, rfl, by decide⟩
  exact ⟨proper, build_builtinTypes, (stands _ _).mp found, found, notType, itself _ _ found⟩

end TagTable

/-! ### The lists of a tree -/

/-- A fold succeeds when every item can be taken in, whatever was taken in before. -/
theorem exists_foldlM_eq_ok {State Item Error : Type} {step : State → Item → Except Error State}
    {items : List Item} (each : ∀ item ∈ items, ∀ state, ∃ next, step state item = .ok next)
    (state : State) : ∃ last, items.foldlM step state = .ok last := by
  induction items generalizing state with
  | nil => exact ⟨state, rfl⟩
  | cons item items inductionHypothesis =>
    obtain ⟨next, taken⟩ := each item List.mem_cons_self state
    obtain ⟨last, rest⟩ :=
      inductionHypothesis (fun other member => each other (List.mem_cons_of_mem _ member)) next
    refine ⟨last, ?_⟩
    rw [List.foldlM_cons, taken]
    exact rest

/-- A built table answers everything that lists ask of a type that it has. -/
theorem TagTable.exists_answers {types : Entries String TagType} {table : TagTable}
    (built : TagTable.build types = .ok table) {name : String}
    (member : name ∈ Entries.keys table.types) :
    (∃ listed, table.isListed name = .ok listed) ∧ (∃ title, table.title name = .ok title) ∧
      ∃ order, table.listOrder name = .ok order := by
  have answers := resolve_of_build built member
  obtain ⟨listed, resolvedList, -⟩ := answers .list
  obtain ⟨title, resolvedTitle, -⟩ := answers .title
  obtain ⟨order, resolvedOrder, -⟩ := answers .listOrder
  simp only [isListed, resolveFlag, resolvedList, TagTable.title, resolveText, resolvedTitle,
    listOrder, resolvedOrder, Except.map]
  exact ⟨⟨_, rfl⟩, ⟨_, rfl⟩, ⟨_, rfl⟩⟩

/-- An element finds its list in a built table if it is a placeholder or has a type of the
table. -/
theorem ElementList.exists_addElement {types : Entries String TagType} {table : TagTable}
    (built : TagTable.build types = .ok table) {element : Element}
    (known : ∀ tagType, element.tagType? = some tagType → tagType ∈ Entries.keys table.types)
    (lists : Entries String ElementList) :
    ∃ later, ElementList.addElement table lists element = .ok later := by
  cases isDeclared : element.tagType? with
  | none =>
    refine ⟨lists, ?_⟩
    simp only [addElement, isDeclared]
    rfl
  | some tagType =>
    obtain ⟨⟨listed, isListed⟩, ⟨title, hasTitle⟩, ⟨order, hasOrder⟩⟩ :=
      TagTable.exists_answers built (known tagType isDeclared)
    simp only [addElement, isDeclared, isListed, hasTitle, hasOrder, bind, Except.bind]
    cases listed with
    | false => exact ⟨_, rfl⟩
    | true =>
      cases Entries.get? lists tagType with
      | some list => exact ⟨_, rfl⟩
      | none => exact ⟨_, rfl⟩

/-- A tree whose declared elements have types of a built table has lists. -/
theorem DocTree.exists_lists {types : Entries String TagType} {table : TagTable}
    (built : TagTable.build types = .ok table) {tree : DocTree}
    (known : ∀ element ∈ tree.elements, ∀ declaration, element.declaration = some declaration →
      declaration.tagType ∈ Entries.keys table.types) :
    ∃ lists, tree.lists table = .ok lists := by
  have each : ∀ element ∈ tree.elements, ∀ lists, ∃ later,
      ElementList.addElement table lists element = .ok later := by
    intro element member
    refine ElementList.exists_addElement built fun tagType isDeclared => ?_
    obtain ⟨declaration, declared, rfl⟩ := Option.map_eq_some_iff.mp isDeclared
    exact known element member declaration declared
  obtain ⟨last, gathered⟩ := exists_foldlM_eq_ok each []
  refine ⟨(last.map (·.2)).mergeSort ElementList.notAfter, ?_⟩
  simp only [DocTree.lists, gathered, bind, Except.bind]
  rfl

theorem Documentation.exists_toJson {documentation : Documentation} {table : TagTable}
    {lists : List ElementList} (listed : documentation.tree.lists table = .ok lists)
    (all : Bool) : ∃ text, documentation.toJson table all = .ok text := by
  simp only [toJson, toDatum, listed, Except.map]
  exact ⟨_, rfl⟩

/-! ### Runs of a builder -/

namespace DocBuilder

/-- The parser that a configuration gives classifies by the given table. -/
theorem classifier_table_of_ofConfig {config : ParserConfig} {table : TagTable}
    {parser : DocParser} (accepted : DocParser.ofConfig config table = .ok parser) :
    parser.classifier.table = table := by
  obtain ⟨patterns, -, -, -, rfl⟩ := DocParser.exists_patterns_of_ofConfig accepted
  rfl

/-- An element of a parsed source has the lines of a block and a type that a name stands for. -/
theorem wellTyped_of_parse {types : Entries String TagType} {parser : DocParser}
    (built : TagTable.build types = .ok parser.classifier.table) {sourcePath : String}
    {source : List Char} {elements : List ResolvedElement}
    (parsed : parser.parse sourcePath source = .ok elements) {element : ResolvedElement}
    (member : element ∈ elements) :
    parser.classifier.table.IsCanonical element.record.declaration.tagType ∧
      element.record.declaration.startLine ≤ element.record.declaration.endLine ∧
      element.record.declaration.sourcePath = sourcePath := by
  obtain ⟨block, scanned, tagged, isOf⟩ := DocParser.exists_block_of_parseBlocks parsed member
  obtain ⟨segment, -, tag, declares, sameType, -⟩ := isOf.tag
  obtain ⟨before, opened, closing, later, -, stands, -⟩ :=
    parser.scanner.standsOn_of_mem_scan scanned
  refine ⟨?_, ?_, isOf.sourcePath⟩
  · rw [sameType]
    exact TagTable.isCanonical_of_canonicalName? built declares.tagType
  · rw [isOf.startLine, isOf.endLine]
    exact stands.startLine_le_endLine

/-- After any run of a new builder every declared element has a type of the builder's own table,
by its own name, ends no earlier than it starts, and was written in one of the source files. So
the lists of the tree can always be made with that table, and the documentation can be written,
with all discovered files or without. -/
theorem parseSources_keeps_types {types : Entries String TagType} {table : TagTable}
    {config : ParserConfig} {builder : DocBuilder} (built : TagTable.build types = .ok table)
    (accepted : ofConfig config table = .ok builder) (files : List (String × List Char)) :
    (builder.parseSources files).table = table ∧
    (∀ element ∈ (builder.parseSources files).documentation.tree.elements,
      ∀ declaration, element.declaration = some declaration →
        (builder.parseSources files).table.IsCanonical declaration.tagType ∧
        declaration.startLine ≤ declaration.endLine ∧
        declaration.sourcePath ∈ (builder.parseSources files).documentation.sourceFiles) ∧
    (∃ lists, (builder.parseSources files).documentation.tree.lists
      (builder.parseSources files).table = .ok lists) ∧
    (∀ all, ∃ text, (builder.parseSources files).documentation.toJson
      (builder.parseSources files).table all = .ok text) := by
  obtain ⟨parser, parserAccepted, rfl⟩ := ofConfig_eq_ok_iff.mp accepted
  have sameTable : (parseSources ⟨parser, .empty⟩ files).table = parser.classifier.table := by
    rw [parseSources_eq]
    rfl
  have own := classifier_table_of_ofConfig parserAccepted
  rw [← own] at built
  rw [sameTable]
  have typed : ∀ element ∈ (parseSources ⟨parser, .empty⟩ files).documentation.tree.elements,
      ∀ declaration, element.declaration = some declaration →
        parser.classifier.table.IsCanonical declaration.tagType ∧
        declaration.startLine ≤ declaration.endLine ∧
        declaration.sourcePath ∈
          (parseSources ⟨parser, .empty⟩ files).documentation.sourceFiles := by
    intro element member declaration declared
    obtain ⟨file, -, elements, parsed, ⟨resolved, inside, -, rfl⟩, listed⟩ :=
      exists_source_of_declaration member declared
    obtain ⟨canonical, ordered, path⟩ := wellTyped_of_parse built parsed inside
    exact ⟨canonical, ordered, path ▸ listed⟩
  obtain ⟨lists, made⟩ := DocTree.exists_lists built fun element member declaration declared =>
    (typed element member declaration declared).1.known
  exact ⟨own, typed, ⟨lists, made⟩, Documentation.exists_toJson made⟩

/-- An element that is declared twice by aliases, with a file that fails between the two. -/
theorem parseSources_keeps_types_standard :
    TagTable.build builtinTypes = .ok .builtin ∧
    ofConfig .standard .builtin = .ok ⟨.standard, .empty⟩ ∧
    ∃ documentation,
      (parseSources ⟨.standard, .empty⟩
        [("a.js", "/** @pack A */\n/** @num .n */\n".toList),
          ("b.js", "/** @class A */\n/** @nope x */\n".toList),
          ("c.js", "/** @a A */\n".toList)]).documentation = documentation ∧
      (∃ element ∈ documentation.tree.elements, element.path = "A" ∧
        element.tagType? = some "article") ∧
      TagTable.builtin.IsCanonical "article" ∧
      (∃ lists, documentation.tree.lists .builtin = .ok lists) ∧
      ∃ text, documentation.toJson .builtin true = .ok text := by
  have accepted : ofConfig .standard .builtin = .ok ⟨.standard, .empty⟩ :=
    ofConfig_eq_ok_iff.mpr ⟨_, DocParser.ofConfig_standard, rfl⟩
  obtain ⟨sameTable, typed, lists, written⟩ :=
    parseSources_keeps_types TagTable.build_builtinTypes accepted
      [("a.js", "/** @pack A */\n/** @num .n */\n".toList),
        ("b.js", "/** @class A */\n/** @nope x */\n".toList),
        ("c.js", "/** @a A */\n".toList)]
  rw [sameTable] at typed lists written
  have article : ((parseSources ⟨.standard, .empty⟩
      [("a.js", "/** @pack A */\n/** @num .n */\n".toList),
        ("b.js", "/** @class A */\n/** @nope x */\n".toList),
        ("c.js", "/** @a A */\n".toList)]).documentation.tree.get? "A").bind Element.tagType? =
          some "article" := by
    decide +kernel
  obtain ⟨element, found, tagType⟩ := Option.bind_eq_some_iff.mp article
  obtain ⟨declaration, declared, ofArticle⟩ := Option.map_eq_some_iff.mp tagType
  rw [tree_parseSources] at found
  have path := DocTree.path_of_get? found
  have member := DocTree.mem_elements_iff_get?.mpr (path.symm ▸ found)
  rw [← tree_parseSources] at member
  have canonical := (typed element member declaration declared).1
  rw [ofArticle] at canonical
  exact ⟨TagTable.build_builtinTypes, accepted, _, rfl, ⟨element, member, path, tagType⟩,
    canonical, lists, written true⟩

end DocBuilder

end DocComments
