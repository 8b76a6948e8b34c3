/-
This file proves which lists a tree has, in which order, and when it has none.

A table that was built answers every question about a type that it has, and none about another
type. So the elements of a tree can be taken into lists up to the first one of an unknown type, and
that type is what the failure names. If there is no such element, there is one list for each type
that is to be listed and has an element. The lists were sorted by their places and then by the
names of their types, and since their types are different no two of them have the same place and
the same name. As no two elements have the same path and no element has two types, no path is
listed twice.
-/

import DocComments.Proofs.ByteOrder
import DocComments.Proofs.CanonicalTypes

namespace DocComments

/-! ### What a type is listed with -/

/-- A value that was put into a larger type is one of those. -/
theorem Lineage.Nearest.exists_kind {types : Entries String TagType} {name : String}
    {Own Value : Type} {own : TagType → Option Own} {kind : Own → Value} {value : Value}
    (nearest : Nearest types name (fun definition => (own definition).map kind) value) :
    ∃ inner, value = kind inner := by
  obtain ⟨steps, definition, -, has, -⟩ := nearest
  obtain ⟨inner, -, same⟩ := Option.map_eq_some_iff.mp has
  exact ⟨inner, same.symm⟩

namespace TagTable

open Lineage

variable {types : Entries String TagType} {table : TagTable} {name : String}

theorem resolve_eq_ok_iff (built : build types = .ok table) {property : TagProperty}
    {value : PropertyValue} :
    table.resolve name property = .ok value ↔ Nearest types name (·.local? property) value := by
  obtain ⟨rfl, -, -⟩ := checked_of_build built
  cases found : table.get? name with
  | some definition =>
    have ends := (endsProperly_of_build built (Entries.mem_keys_of_get? found)).ends
    rw [← findSome?_ancestry_eq_some_iff found ends, resolve, chain_of_known found]
    simp only [bind, Except.bind]
    cases (table.ancestry table.types.length definition).findSome? (·.local? property) with
    | some answer => rw [Except.ok.injEq, Option.some.injEq]
    | none => exact iff_of_false (by simp) (by simp)
  | none =>
    rw [resolve_of_unknown found]
    refine iff_of_false (by simp) ?_
    rintro ⟨steps, definition, reached, -⟩
    rw [ancestorType?_of_unknown found] at reached
    cases reached

/-- What a look-up answers with, if it wants a property of one kind. -/
theorem map_resolve_eq_ok_iff (built : build types = .ok table) {property : TagProperty}
    {Own : Type} {own : TagType → Option Own} {kind : Own → PropertyValue}
    (isLocal : ∀ definition : TagType, definition.local? property = (own definition).map kind)
    {read : PropertyValue → Own} (readBack : ∀ inner, read (kind inner) = inner) {inner : Own} :
    (table.resolve name property).map read = .ok inner ↔
      Nearest types name (·.local? property) (kind inner) := by
  rw [← resolve_eq_ok_iff built]
  constructor
  · intro answered
    cases resolved : table.resolve name property with
    | error error =>
      rw [resolved] at answered
      cases answered
    | ok value =>
      have nearest := (resolve_eq_ok_iff built).mp resolved
      simp only [isLocal] at nearest
      obtain ⟨other, rfl⟩ := nearest.exists_kind
      rw [resolved] at answered
      rw [← Except.ok.inj answered, readBack]
  · intro resolved
    rw [resolved]
    exact congrArg Except.ok (readBack inner)

theorem isListed_eq_ok_iff (built : build types = .ok table) {listed : Bool} :
    table.isListed name = .ok listed ↔ Nearest types name (·.local? .list) (.flag listed) :=
  map_resolve_eq_ok_iff built (fun _ => rfl) fun _ => rfl

theorem title_eq_ok_iff (built : build types = .ok table) {title : String} :
    table.title name = .ok title ↔ Nearest types name (·.local? .title) (.text title) :=
  map_resolve_eq_ok_iff built (fun _ => rfl) fun _ => rfl

theorem listOrder_eq_ok_iff (built : build types = .ok table) {order : Int} :
    table.listOrder name = .ok order ↔ Nearest types name (·.local? .listOrder) (.order order) :=
  map_resolve_eq_ok_iff built (fun _ => rfl) fun _ => rfl

theorem isListed_of_unknown (unknown : name ∉ Entries.keys table.types) :
    table.isListed name = .error (.unknownType name) := by
  rw [isListed, resolveFlag, resolve_of_unknown (Entries.get?_eq_none_iff.mpr unknown)]
  rfl

theorem mem_keys_of_isListed {listed : Bool} (answers : table.isListed name = .ok listed) :
    name ∈ Entries.keys table.types := by
  by_contra unknown
  rw [isListed_of_unknown unknown] at answers
  cases answers

end TagTable

/-! ### Elements of unknown types -/

/-- The type of an element is in a map. Of a placeholder, which has none, nothing is asked. -/
def Element.TypeKnown (types : Entries String TagType) (element : Element) : Prop :=
  ∀ tagType, element.tagType? = some tagType → tagType ∈ Entries.keys types

instance (types : Entries String TagType) (element : Element) :
    Decidable (element.TypeKnown types) :=
  inferInstanceAs (Decidable (∀ tagType, element.tagType? = some tagType →
    tagType ∈ Entries.keys types))

/-- The first element whose type is not in a map has this type. -/
def FirstUnknown (types : Entries String TagType) (elements : List Element) (tagType : String) :
    Prop :=
  ∃ before element after, elements = before ++ element :: after ∧
    (∀ earlier ∈ before, earlier.TypeKnown types) ∧
    element.tagType? = some tagType ∧ tagType ∉ Entries.keys types

theorem firstUnknown_iff_find? {types : Entries String TagType} {elements : List Element}
    {tagType : String} :
    FirstUnknown types elements tagType ↔
      (elements.find? fun element => ¬ element.TypeKnown types).bind Element.tagType? =
        some tagType := by
  simp only [Option.bind_eq_some_iff, List.find?_eq_some_iff_append, decide_not,
    Bool.not_eq_true', decide_eq_false_iff_not, Bool.not_not, decide_eq_true_eq]
  constructor
  · rintro ⟨before, element, after, parts, earlier, declared, unknown⟩
    exact ⟨element, ⟨fun known => unknown (known tagType declared), before, after, parts, earlier⟩,
      declared⟩
  · rintro ⟨element, ⟨unknown, before, after, parts, earlier⟩, declared⟩
    refine ⟨before, element, after, parts, earlier, declared, fun member => unknown ?_⟩
    intro other alsoDeclared
    rwa [← Option.some.inj (declared.symm.trans alsoDeclared)]

instance (types : Entries String TagType) (elements : List Element) (tagType : String) :
    Decidable (FirstUnknown types elements tagType) :=
  decidable_of_iff' _ firstUnknown_iff_find?

/-- Either all types are known, or one of the elements is the first that has an unknown one. -/
theorem known_or_firstUnknown (types : Entries String TagType) (elements : List Element) :
    (∀ element ∈ elements, element.TypeKnown types) ∨
      ∃ tagType, FirstUnknown types elements tagType := by
  simp only [firstUnknown_iff_find?]
  cases found : elements.find? fun element => ¬ element.TypeKnown types with
  | none =>
    simp only [List.find?_eq_none, decide_eq_true_eq, not_not] at found
    exact .inl found
  | some element =>
    have unknown : ¬ element.TypeKnown types := by simpa using List.find?_some found
    obtain ⟨tagType, notKnown⟩ := not_forall.mp unknown
    exact .inr ⟨tagType, (Classical.not_imp.mp notKnown).1⟩

namespace ElementList

theorem addElement_of_unknown {table : TagTable} {element : Element} {tagType : String}
    (declared : element.tagType? = some tagType) (unknown : tagType ∉ Entries.keys table.types)
    (lists : Entries String ElementList) :
    addElement table lists element = .error (.unknownType tagType) := by
  simp only [addElement, declared, TagTable.isListed_of_unknown unknown, bind, Except.bind]

end ElementList

namespace DocTree

variable {types : Entries String TagType} {table : TagTable} {tree : DocTree}

theorem exists_lists_of_known (built : TagTable.build types = .ok table)
    (known : ∀ element ∈ tree.elements, element.TypeKnown types) :
    ∃ lists, tree.lists table = .ok lists := by
  obtain ⟨rfl, -, -⟩ := TagTable.checked_of_build built
  refine exists_lists built fun element member declaration declared => ?_
  exact known element member _ (congrArg (Option.map Declaration.tagType) declared)

/-- Taking elements in stops at the first one of an unknown type. -/
theorem lists_of_firstUnknown (built : TagTable.build types = .ok table) {tagType : String}
    (first : FirstUnknown types tree.elements tagType) :
    tree.lists table = .error (.unknownType tagType) := by
  obtain ⟨rfl, -, -⟩ := TagTable.checked_of_build built
  obtain ⟨before, element, after, parts, earlier, declared, unknown⟩ := first
  obtain ⟨entries, taken⟩ := exists_foldlM_eq_ok
    (fun own member lists => ElementList.exists_addElement built (earlier own member) lists) []
  simp only [lists, parts, List.foldlM_append, taken, List.foldlM_cons,
    ElementList.addElement_of_unknown declared unknown, bind, Except.bind]

theorem exists_lists_iff (built : TagTable.build types = .ok table) :
    (∃ lists, tree.lists table = .ok lists) ↔
      ∀ element ∈ tree.elements, element.TypeKnown types := by
  refine ⟨?_, exists_lists_of_known built⟩
  rintro ⟨lists, made⟩
  refine (known_or_firstUnknown types tree.elements).resolve_right ?_
  rintro ⟨tagType, first⟩
  rw [lists_of_firstUnknown built first] at made
  cases made

theorem lists_eq_error_iff (built : TagTable.build types = .ok table) {error : SettingsError} :
    tree.lists table = .error error ↔
      ∃ tagType, FirstUnknown types tree.elements tagType ∧ error = .unknownType tagType := by
  constructor
  · intro failed
    rcases known_or_firstUnknown types tree.elements with known | ⟨tagType, first⟩
    · obtain ⟨lists, made⟩ := exists_lists_of_known built known
      rw [made] at failed
      cases failed
    · rw [lists_of_firstUnknown built first] at failed
      exact ⟨tagType, first, (Except.error.inj failed).symm⟩
  · rintro ⟨tagType, first, rfl⟩
    exact lists_of_firstUnknown built first

/-! ### The lists one by one -/

theorem mem_lists_iff {lists : List ElementList} (made : tree.lists table = .ok lists)
    {list : ElementList} :
    list ∈ lists ↔ ∃ tagType, list.IsOf table tree.elements tagType := by
  obtain ⟨entries, gathered, rfl⟩ := exists_gathered_of_lists made
  rw [List.mem_mergeSort, gathered.mem_map_snd]

theorem eq_of_tagType_eq {lists : List ElementList} (made : tree.lists table = .ok lists)
    {first second : ElementList} (inFirst : first ∈ lists) (inSecond : second ∈ lists)
    (sameType : first.tagType = second.tagType) : first = second := by
  obtain ⟨firstType, isOf⟩ := (mem_lists_iff made).mp inFirst
  obtain ⟨secondType, otherIsOf⟩ := (mem_lists_iff made).mp inSecond
  rw [isOf.tagType, otherIsOf.tagType] at sameType
  subst sameType
  exact isOf.eq otherIsOf

/-- No two lists of a tree are of the same type. -/
theorem pairwise_tagType_ne {lists : List ElementList} (made : tree.lists table = .ok lists) :
    lists.Pairwise fun first second => first.tagType ≠ second.tagType := by
  have distinct : lists.Nodup := by
    obtain ⟨entries, gathered, rfl⟩ := exists_gathered_of_lists made
    exact (List.mergeSort_perm _ _).nodup_iff.mpr gathered.nodup_headings.of_map
  refine distinct.imp_of_mem fun inFirst inSecond different sameType => different ?_
  exact eq_of_tagType_eq made inFirst inSecond sameType

end DocTree

namespace ElementList

/-- A list stands before another one: it has the lower place, or the same place and a type whose
name comes first in the order of bytes. -/
def Before (first second : ElementList) : Prop :=
  first.listOrder < second.listOrder ∨
    first.listOrder = second.listOrder ∧ Text.BytesBefore first.tagType second.tagType

theorem before_of_notAfter {first second : ElementList} (notAfter : first.notAfter second = true)
    (different : first.tagType ≠ second.tagType) : first.Before second :=
  (notAfter_iff.mp notAfter).imp_right
    (And.imp_right fun names => Text.bytesBefore_of_notAfter names different)

theorem pathsOfType_sublist (elements : List Element) (tagType : String) :
    (pathsOfType elements tagType).Sublist (elements.map Element.path) :=
  List.filter_sublist.map Element.path

theorem mem_pathsOfType {elements : List Element} {tagType path : String} :
    path ∈ pathsOfType elements tagType ↔
      ∃ element ∈ elements, element.tagType? = some tagType ∧ element.path = path := by
  simp only [pathsOfType, List.mem_map, List.mem_filter, beq_iff_eq, and_assoc]

theorem pathsOfType_ne_nil_iff {elements : List Element} {tagType : String} :
    pathsOfType elements tagType ≠ [] ↔
      ∃ element ∈ elements, element.tagType? = some tagType := by
  constructor
  · intro nonempty
    obtain ⟨path, member⟩ := List.exists_mem_of_ne_nil _ nonempty
    obtain ⟨element, inside, declared, -⟩ := mem_pathsOfType.mp member
    exact ⟨element, inside, declared⟩
  · rintro ⟨element, inside, declared⟩
    exact List.ne_nil_of_mem (mem_pathsOfType.mpr ⟨element, inside, declared, rfl⟩)

/-- Elements with different paths are listed under one type only. -/
theorem disjoint_pathsOfType {elements : List Element}
    (distinct : (elements.map Element.path).Nodup) {first second : String}
    (different : first ≠ second) :
    (pathsOfType elements first).Disjoint (pathsOfType elements second) := by
  intro path inFirst inSecond
  obtain ⟨element, inside, declared, rfl⟩ := mem_pathsOfType.mp inFirst
  obtain ⟨other, otherInside, otherDeclared, samePath⟩ := mem_pathsOfType.mp inSecond
  obtain rfl := List.inj_on_of_nodup_map distinct otherInside inside samePath
  exact different (Option.some.inj (declared.symm.trans otherDeclared))

end ElementList

namespace DocTree

variable {types : Entries String TagType} {table : TagTable} {lists : List ElementList}

theorem pairwise_before {tree : DocTree} (made : tree.lists table = .ok lists) :
    lists.Pairwise ElementList.Before := by
  have sorted : lists.Pairwise fun first second => first.notAfter second = true := by
    obtain ⟨entries, -, rfl⟩ := exists_gathered_of_lists made
    exact List.pairwise_mergeSort ElementList.notAfter_trans ElementList.notAfter_total _
  exact sorted.imp₂ (fun _ _ => ElementList.before_of_notAfter) (pairwise_tagType_ne made)

theorem nodup_listed {tree : DocTree} (distinct : (tree.elements.map Element.path).Nodup)
    (made : tree.lists table = .ok lists) : (lists.flatMap ElementList.elements).Nodup := by
  have ofType : ∀ list ∈ lists,
      list.elements = ElementList.pathsOfType tree.elements list.tagType := by
    intro list member
    obtain ⟨tagType, isOf⟩ := (mem_lists_iff made).mp member
    rw [isOf.tagType, isOf.elements]
  rw [List.nodup_flatMap]
  constructor
  · intro list member
    rw [ofType list member]
    exact distinct.sublist (ElementList.pathsOfType_sublist _ _)
  · refine (pairwise_tagType_ne made).imp_of_mem fun {first second} inFirst inSecond different => ?_
    show first.elements.Disjoint second.elements
    rw [ofType first inFirst, ofType second inSecond]
    exact ElementList.disjoint_pathsOfType distinct different

/-! ### All lists of a tree -/

/-- A type belongs among the lists of elements: the nearest type that says so says that it is to be
listed, and there is a declared element of it. -/
def Belongs (types : Entries String TagType) (elements : List Element) (tagType : String) : Prop :=
  Lineage.Nearest types tagType (·.local? .list) (.flag true) ∧
    ∃ element ∈ elements, element.tagType? = some tagType

/-- The lists of a tree, from its elements in preorder. -/
structure ListedAs (tree : DocTree) (types : Entries String TagType) (lists : List ElementList) :
    Prop where
  /-- Every list is of a type that belongs there. -/
  belongs : ∀ list ∈ lists, Belongs types (Element.preorderAll tree.roots) list.tagType
  /-- Every type that belongs there has one list. -/
  one : ∀ tagType, Belongs types (Element.preorderAll tree.roots) tagType →
    ∃! list, list ∈ lists ∧ list.tagType = tagType
  title : ∀ list ∈ lists,
    Lineage.Nearest types list.tagType (·.local? .title) (.text list.title)
  listOrder : ∀ list ∈ lists,
    Lineage.Nearest types list.tagType (·.local? .listOrder) (.order list.listOrder)
  elements : ∀ list ∈ lists,
    list.elements = ElementList.pathsOfType (Element.preorderAll tree.roots) list.tagType
  ordered : lists.Pairwise ElementList.Before
  once : (lists.flatMap ElementList.elements).Nodup
  declared : ∀ list ∈ lists, ∀ path ∈ list.elements, ∃ element declaration,
    tree.get? path = some element ∧ element.declaration = some declaration ∧
      declaration.tagType = list.tagType

theorem exists_declaration_of_listed {calls : List TreeCall} {tagType path : String}
    (listed : path ∈ ElementList.pathsOfType (afterCalls calls).elements tagType) :
    ∃ element declaration, (afterCalls calls).get? path = some element ∧
      element.declaration = some declaration ∧ declaration.tagType = tagType := by
  obtain ⟨element, member, hasType, rfl⟩ := ElementList.mem_pathsOfType.mp listed
  obtain ⟨declaration, declared, rfl⟩ := Option.map_eq_some_iff.mp hasType
  obtain ⟨above, key, stands⟩ := (mem_elements_afterCalls calls element).mp member
  exact ⟨element, declaration, (get?_path_of_stands stands).2, declared, rfl⟩

theorem existsUnique_list {tree : DocTree} (built : TagTable.build types = .ok table)
    (made : tree.lists table = .ok lists) {tagType : String}
    (belongs : Belongs types tree.elements tagType) :
    ∃! list, list ∈ lists ∧ list.tagType = tagType := by
  obtain ⟨toBeListed, hasElement⟩ := belongs
  have listed := (TagTable.isListed_eq_ok_iff built).mpr toBeListed
  obtain ⟨-, ⟨title, hasTitle⟩, ⟨order, hasOrder⟩⟩ :=
    TagTable.exists_answers built (TagTable.mem_keys_of_isListed listed)
  have member := (mem_lists_iff made).mpr
    ⟨tagType, listed, ElementList.pathsOfType_ne_nil_iff.mpr hasElement, hasTitle, hasOrder,
      (rfl : ElementList.elements ⟨tagType, title, order, _⟩ = _), rfl⟩
  refine ⟨_, ⟨member, rfl⟩, ?_⟩
  rintro other ⟨inside, sameType⟩
  exact eq_of_tagType_eq made inside member sameType

theorem listedAs_of_lists (built : TagTable.build types = .ok table) {calls : List TreeCall}
    (made : (afterCalls calls).lists table = .ok lists) :
    ListedAs (afterCalls calls) types lists := by
  have isOf : ∀ list ∈ lists, list.IsOf table (afterCalls calls).elements list.tagType := by
    intro list member
    obtain ⟨tagType, isOf⟩ := (mem_lists_iff made).mp member
    rwa [isOf.tagType]
  have inPreorder := elements_eq_preorderAll (afterCalls calls)
  constructor
  case belongs =>
    intro list member
    rw [← inPreorder]
    exact ⟨(TagTable.isListed_eq_ok_iff built).mp (isOf list member).listed,
      ElementList.pathsOfType_ne_nil_iff.mp (isOf list member).nonempty⟩
  case one =>
    intro tagType belongs
    rw [← inPreorder] at belongs
    exact existsUnique_list built made belongs
  case title =>
    exact fun list member => (TagTable.title_eq_ok_iff built).mp (isOf list member).title
  case listOrder =>
    exact fun list member => (TagTable.listOrder_eq_ok_iff built).mp (isOf list member).listOrder
  case elements =>
    intro list member
    rw [← inPreorder]
    exact (isOf list member).elements
  case ordered => exact pairwise_before made
  case once => exact nodup_listed (nodup_paths_elements calls) made
  case declared =>
    intro list member path listed
    rw [(isOf list member).elements] at listed
    exact exists_declaration_of_listed listed

/-- A tree has lists under a built table exactly if the type of every declared element is in the
table. Otherwise the failure names the type of the first element, in preorder, that has an unknown
one. The lists of a tree are those of the types that are to be listed and have an element, one for
each, with the title and the place of the type and the paths of its elements in preorder. They stand
strictly in the order of their places and of the names of their types, and no path is in them twice
and none is that of a placeholder. -/
theorem lists_gather_declared_elements (built : TagTable.build types = .ok table)
    (calls : List TreeCall) :
    ((∃ lists, (afterCalls calls).lists table = .ok lists) ↔
      ∀ element ∈ Element.preorderAll (afterCalls calls).roots, element.TypeKnown types) ∧
    (∀ error, (afterCalls calls).lists table = .error error ↔
      ∃ tagType, FirstUnknown types (Element.preorderAll (afterCalls calls).roots) tagType ∧
        error = .unknownType tagType) ∧
    (∀ lists, (afterCalls calls).lists table = .ok lists →
      ListedAs (afterCalls calls) types lists) := by
  rw [← elements_eq_preorderAll]
  exact ⟨exists_lists_iff built, fun error => lists_eq_error_iff built,
    fun lists made => listedAs_of_lists built made⟩

/-- A declaration of a type, with nothing else in it. -/
def plainly (tagType : String) : Declaration :=
  ⟨1, 1, "a.js", none, tagType, "", .empty⟩

/-- A tree with two listed types at the same place, one that is not listed, and placeholders. -/
def shelfCalls : List TreeCall :=
  [.merge "tools.Saw" (plainly "class"), .merge "box" (plainly "module"),
    .merge "box.open" (plainly "function"), .ensure "box.lid.hinge",
    .merge "box.Lock" (plainly "class")]

/-- The elements of a type are listed with the title and the place that the type inherits, and an
unknown type further down makes the listing fail. -/
theorem lists_gather_declared_elements_shelf :
    TagTable.build builtinTypes = .ok .builtin ∧
    (∃ lists, (afterCalls shelfCalls).lists .builtin = .ok lists ∧
      ∃ list ∈ lists, list.tagType = "class" ∧ list.title = "classes" ∧ list.listOrder = 0 ∧
        list.elements = ["tools.Saw", "box.Lock"]) ∧
    (afterCalls (shelfCalls ++ [.merge "box.lid" (plainly "nope")])).lists .builtin =
      .error (.unknownType "nope") := by
  have built := TagTable.build_builtinTypes
  refine ⟨built, ?_, ?_⟩
  · obtain ⟨known, -, listed⟩ := lists_gather_declared_elements built shelfCalls
    obtain ⟨lists, made⟩ := known.mpr (by decide +kernel)
    have listedAs := listed lists made
    have belongs :
        Belongs builtinTypes (Element.preorderAll (afterCalls shelfCalls).roots) "class" :=
      ⟨(TagTable.isListed_eq_ok_iff built).mp (by decide +kernel),
        ElementList.pathsOfType_ne_nil_iff.mp (by decide +kernel)⟩
    obtain ⟨list, ⟨member, ofType⟩, -⟩ := listedAs.one "class" belongs
    have title := (TagTable.title_eq_ok_iff built).mpr (listedAs.title list member)
    have listOrder := (TagTable.listOrder_eq_ok_iff built).mpr (listedAs.listOrder list member)
    have elements := listedAs.elements list member
    rw [ofType] at title listOrder elements
    refine ⟨lists, made, list, member, ofType, ?_, ?_, elements.trans (by decide +kernel)⟩
    · have classes : TagTable.builtin.title "class" = .ok "classes" := by decide +kernel
      exact Except.ok.inj (title.symm.trans classes)
    · have inherited : TagTable.builtin.listOrder "class" = .ok 0 := by decide +kernel
      exact Except.ok.inj (listOrder.symm.trans inherited)
  · obtain ⟨-, fails, -⟩ := lists_gather_declared_elements built
      (shelfCalls ++ [.merge "box.lid" (plainly "nope")])
    exact (fails _).mpr ⟨"nope", by decide +kernel, rfl⟩

end DocTree

end DocComments
