/-
This file proves what the lists of a tree hold.

Elements are taken into lists one after the other. After any number of them there is one list for
each type that is to be listed and that one of them has; it has the title and the place of the
type, and the paths of the elements of the type in the order in which they came. So the lists are
determined by the elements of each type, and which type came first is no part of them. The lists
are sorted at the end by their places and then by the names of their types. Since no two lists are
of the same type this order leaves no choice, so trees that have the same elements of each type,
in whatever order, have the same lists in the same order.
-/

import DocComments.Element.List
import DocComments.Proofs.Entries
import Mathlib.Data.List.Forall2

namespace DocComments

/-- A computation in two steps that succeeds has a first step that does. -/
theorem exists_ok_of_bind {Value Result Error : Type} {first : Except Error Value}
    {second : Value → Except Error Result} {result : Result}
    (succeeds : first >>= second = .ok result) :
    ∃ value, first = .ok value ∧ second value = .ok result := by
  cases first with
  | error error => cases succeeds
  | ok value => exact ⟨value, rfl, succeeds⟩

/-! ### The order of lists -/

namespace Text

/-- The first different characters decide. -/
theorem notAfter_cons {c d : Char} {first second : List Char} :
    notAfter (c :: first) (d :: second) = true ↔
      c.toNat < d.toNat ∨ c = d ∧ notAfter first second = true := by
  rw [notAfter]
  by_cases same : c = d
  · simp [same]
  · rw [if_neg (by rwa [beq_iff_eq]), Nat.blt_eq]
    simp [same]

theorem notAfter_trans {first second third : List Char} (before : notAfter first second = true)
    (after : notAfter second third = true) : notAfter first third = true := by
  induction first generalizing second third with
  | nil => rfl
  | cons c first inductionHypothesis =>
    cases second with
    | nil => cases before
    | cons d second =>
      cases third with
      | nil => cases after
      | cons e third =>
        rw [notAfter_cons] at before after ⊢
        rcases before with earlier | ⟨rfl, restBefore⟩
        · rcases after with later | ⟨rfl, -⟩
          · exact .inl (Nat.lt_trans earlier later)
          · exact .inl earlier
        · exact after.imp_right (And.imp_right (inductionHypothesis restBefore))

theorem notAfter_total (first second : List Char) :
    notAfter first second = true ∨ notAfter second first = true := by
  induction first generalizing second with
  | nil => exact .inl rfl
  | cons c first inductionHypothesis =>
    cases second with
    | nil => exact .inr rfl
    | cons d second =>
      rw [notAfter_cons, notAfter_cons]
      rcases Nat.lt_trichotomy c.toNat d.toNat with earlier | tie | later
      · exact .inl (.inl earlier)
      · have same : c = d := Char.toNat_inj.mp tie
        exact (inductionHypothesis second).imp (fun before => .inr ⟨same, before⟩)
          fun after => .inr ⟨same.symm, after⟩
      · exact .inr (.inl later)

theorem notAfter_antisymm {first second : List Char} (before : notAfter first second = true)
    (after : notAfter second first = true) : first = second := by
  induction first generalizing second with
  | nil =>
    cases second with
    | nil => rfl
    | cons d second => cases after
  | cons c first inductionHypothesis =>
    cases second with
    | nil => cases before
    | cons d second =>
      rw [notAfter_cons] at before after
      rcases before with earlier | ⟨rfl, restBefore⟩
      · rcases after with later | ⟨rfl, -⟩
        · exact absurd later (Nat.lt_asymm earlier)
        · exact absurd earlier (Nat.lt_irrefl _)
      · have restAfter := (after.resolve_left (Nat.lt_irrefl _)).2
        rw [inductionHypothesis restBefore restAfter]

end Text

namespace ElementList

theorem notAfter_iff {first second : ElementList} :
    notAfter first second = true ↔ first.listOrder < second.listOrder ∨
      first.listOrder = second.listOrder ∧
        Text.notAfter first.tagType.toList second.tagType.toList = true := by
  rw [notAfter]
  split
  · rename_i tie
    rw [beq_iff_eq.mp tie]
    simp
  · rename_i differs
    have noTie : first.listOrder ≠ second.listOrder := fun same =>
      differs (beq_iff_eq.mpr same)
    rw [decide_eq_true_eq]
    omega

theorem notAfter_trans (first second third : ElementList)
    (before : notAfter first second = true) (after : notAfter second third = true) :
    notAfter first third = true := by
  rw [notAfter_iff] at before after ⊢
  rcases before with earlier | ⟨tie, names⟩
  · rcases after with later | ⟨tie, -⟩
    · exact .inl (Int.lt_trans earlier later)
    · exact .inl (tie ▸ earlier)
  · rcases after with later | ⟨otherTie, otherNames⟩
    · exact .inl (tie ▸ later)
    · exact .inr ⟨tie.trans otherTie, Text.notAfter_trans names otherNames⟩

theorem notAfter_total (first second : ElementList) :
    (notAfter first second || notAfter second first) = true := by
  rw [Bool.or_eq_true, notAfter_iff, notAfter_iff]
  rcases Int.lt_trichotomy first.listOrder second.listOrder with earlier | tie | later
  · exact .inl (.inl earlier)
  · exact (Text.notAfter_total first.tagType.toList second.tagType.toList).imp
      (fun names => .inr ⟨tie, names⟩) fun names => .inr ⟨tie.symm, names⟩
  · exact .inr (.inl later)

/-- Lists that may stand in either order are of the same type. -/
theorem tagType_eq_of_notAfter {first second : ElementList}
    (before : notAfter first second = true) (after : notAfter second first = true) :
    first.tagType = second.tagType := by
  rw [notAfter_iff] at before after
  rcases before with earlier | ⟨tie, names⟩
  · rcases after with later | ⟨tie, -⟩
    · exact absurd (Int.lt_trans earlier later) (Int.lt_irrefl _)
    · exact absurd (tie ▸ earlier) (Int.lt_irrefl _)
  · rcases after with later | ⟨-, otherNames⟩
    · exact absurd (tie ▸ later) (Int.lt_irrefl _)
    · exact String.toList_inj.mp (Text.notAfter_antisymm names otherNames)

/-! ### Taking elements in -/

/-- The paths of the declared elements of a type, in order. -/
def pathsOfType (elements : List Element) (tagType : String) : List String :=
  (elements.filter fun element => element.tagType? == some tagType).map Element.path

theorem pathsOfType_concat (elements : List Element) (element : Element) (tagType : String) :
    pathsOfType (elements ++ [element]) tagType =
      pathsOfType elements tagType ++
        if element.tagType? = some tagType then [element.path] else [] := by
  rw [pathsOfType, List.filter_append, List.map_append, pathsOfType]
  by_cases same : element.tagType? = some tagType
  · simp [same]
  · simp [same]

/-- A list is that of a type among elements: the type is to be listed and has an element, and the
list has the title and the place of the type and the paths of its elements. -/
structure IsOf (list : ElementList) (table : TagTable) (elements : List Element)
    (tagType : String) : Prop where
  listed : table.isListed tagType = .ok true
  nonempty : pathsOfType elements tagType ≠ []
  title : table.title tagType = .ok list.title
  listOrder : table.listOrder tagType = .ok list.listOrder
  elements : list.elements = pathsOfType elements tagType
  tagType : list.tagType = tagType

/-- The list of a type is determined by its elements. -/
theorem IsOf.eq {first second : ElementList} {table : TagTable} {elements : List Element}
    {tagType : String} (isOf : first.IsOf table elements tagType)
    (other : second.IsOf table elements tagType) : first = second := by
  have title := Except.ok.inj (isOf.title.symm.trans other.title)
  have listOrder := Except.ok.inj (isOf.listOrder.symm.trans other.listOrder)
  obtain ⟨firstType, firstTitle, firstOrder, firstElements⟩ := first
  obtain ⟨secondType, secondTitle, secondOrder, secondElements⟩ := second
  simp only at title listOrder
  rw [ElementList.mk.injEq]
  exact ⟨isOf.tagType.trans other.tagType.symm, title, listOrder,
    isOf.elements.trans other.elements.symm⟩

/-- The lists gathered from elements: one under each type that has a list among them. -/
structure Gathered (table : TagTable) (elements : List Element)
    (lists : Entries String ElementList) : Prop where
  distinct : (Entries.keys lists).Nodup
  holds : ∀ tagType list, Entries.get? lists tagType = some list ↔
    list.IsOf table elements tagType

/-- What taking in an element can do: nothing, for a placeholder or a type that is not listed; or
it extends the list of its type, or it makes it. -/
theorem addElement_cases {table : TagTable} {lists later : Entries String ElementList}
    {element : Element} (added : addElement table lists element = .ok later) :
    (later = lists ∧ ∀ tagType, element.tagType? = some tagType →
      table.isListed tagType = .ok false) ∨
    ∃ tagType, element.tagType? = some tagType ∧ table.isListed tagType = .ok true ∧
      ((∃ list, Entries.get? lists tagType = some list ∧
        later = Entries.set lists tagType
          { list with elements := list.elements ++ [element.path] }) ∨
      ∃ title listOrder, Entries.get? lists tagType = none ∧
        table.title tagType = .ok title ∧ table.listOrder tagType = .ok listOrder ∧
        later = Entries.set lists tagType ⟨tagType, title, listOrder, [element.path]⟩) := by
  unfold addElement at added
  cases declared : element.tagType? with
  | none =>
    rw [declared] at added
    exact .inl ⟨(Except.ok.inj added).symm, nofun⟩
  | some tagType =>
    rw [declared] at added
    obtain ⟨flag, listed, added⟩ := exists_ok_of_bind added
    cases flag with
    | false =>
      refine .inl ⟨(Except.ok.inj added).symm, fun other same => ?_⟩
      rw [← Option.some.inj same, listed]
    | true =>
      refine .inr ⟨tagType, rfl, listed, ?_⟩
      rw [if_pos rfl] at added
      cases found : Entries.get? lists tagType with
      | some list =>
        rw [found] at added
        exact .inl ⟨list, rfl, (Except.ok.inj added).symm⟩
      | none =>
        rw [found] at added
        obtain ⟨title, hasTitle, added⟩ := exists_ok_of_bind added
        obtain ⟨listOrder, hasOrder, added⟩ := exists_ok_of_bind added
        exact .inr ⟨title, listOrder, rfl, hasTitle, hasOrder, (Except.ok.inj added).symm⟩

/-- An element of another type does not touch the list of a type. -/
theorem isOf_concat_of_ne {list : ElementList} {table : TagTable} {elements : List Element}
    {element : Element} {tagType : String}
    (other : table.isListed tagType = .ok true → element.tagType? ≠ some tagType) :
    list.IsOf table (elements ++ [element]) tagType ↔ list.IsOf table elements tagType := by
  have samePaths (listed : table.isListed tagType = .ok true) :
      pathsOfType (elements ++ [element]) tagType = pathsOfType elements tagType := by
    rw [pathsOfType_concat, if_neg (other listed), List.append_nil]
  constructor
  · intro isOf
    have same := samePaths isOf.listed
    exact ⟨isOf.listed, same ▸ isOf.nonempty, isOf.title, isOf.listOrder,
      same ▸ isOf.elements, isOf.tagType⟩
  · intro isOf
    have same := samePaths isOf.listed
    exact ⟨isOf.listed, same.symm ▸ isOf.nonempty, isOf.title, isOf.listOrder,
      same.symm ▸ isOf.elements, isOf.tagType⟩

/-- Setting the list of a type keeps the lists gathered if it is the list of the type with the
new element. -/
theorem Gathered.set {table : TagTable} {elements : List Element}
    {lists : Entries String ElementList} (gathered : Gathered table elements lists)
    {element : Element} {tagType : String} (declared : element.tagType? = some tagType)
    {list : ElementList} (isOf : list.IsOf table (elements ++ [element]) tagType) :
    Gathered table (elements ++ [element]) (Entries.set lists tagType list) := by
  refine ⟨Entries.nodup_keys_alter _ gathered.distinct tagType, fun other found => ?_⟩
  rw [Entries.set]
  by_cases same : other = tagType
  · subst same
    rw [Entries.get?_alter_self, Option.some.injEq]
    exact ⟨fun equal => equal ▸ isOf, fun own => isOf.eq own⟩
  · rw [Entries.get?_alter_of_ne _ _ same, gathered.holds, isOf_concat_of_ne]
    intro _ alsoDeclared
    exact same (Option.some.inj (alsoDeclared.symm.trans declared))

/-- One more element keeps the lists gathered. -/
theorem Gathered.addElement {table : TagTable} {elements : List Element}
    {lists later : Entries String ElementList} (gathered : Gathered table elements lists)
    {element : Element} (added : ElementList.addElement table lists element = .ok later) :
    Gathered table (elements ++ [element]) later := by
  rcases addElement_cases added with
    ⟨rfl, unlisted⟩ | ⟨tagType, declared, listed, extended | made⟩
  · refine ⟨gathered.distinct, fun tagType list => ?_⟩
    rw [gathered.holds, isOf_concat_of_ne]
    intro listed declared
    cases listed.symm.trans (unlisted tagType declared)
  · obtain ⟨list, found, rfl⟩ := extended
    have isOf := (gathered.holds tagType list).mp found
    refine gathered.set declared ⟨listed, ?_, isOf.title, isOf.listOrder, ?_, isOf.tagType⟩
    · rw [pathsOfType_concat]
      exact List.append_ne_nil_of_left_ne_nil isOf.nonempty _
    · rw [pathsOfType_concat, if_pos declared, ← isOf.elements]
  · obtain ⟨title, listOrder, missing, hasTitle, hasOrder, rfl⟩ := made
    -- Had the type an element before, it would have its list already.
    have noneBefore : pathsOfType elements tagType = [] := by
      by_contra nonempty
      have found := (gathered.holds tagType ⟨tagType, title, listOrder, _⟩).mpr
        ⟨listed, nonempty, hasTitle, hasOrder, rfl, rfl⟩
      rw [missing] at found
      cases found
    refine gathered.set declared ⟨listed, ?_, hasTitle, hasOrder, ?_, rfl⟩
    · rw [pathsOfType_concat, if_pos declared, noneBefore]
      exact List.cons_ne_nil _ _
    · rw [pathsOfType_concat, if_pos declared, noneBefore, List.nil_append]

theorem Gathered.foldlM {table : TagTable} {before elements : List Element}
    {lists last : Entries String ElementList} (gathered : Gathered table before lists)
    (folded : elements.foldlM (ElementList.addElement table) lists = .ok last) :
    Gathered table (before ++ elements) last := by
  induction elements generalizing before lists with
  | nil =>
    cases folded
    rwa [List.append_nil]
  | cons element elements inductionHypothesis =>
    rw [List.foldlM_cons] at folded
    obtain ⟨later, added, folded⟩ := exists_ok_of_bind folded
    have rest := inductionHypothesis (gathered.addElement added) folded
    rwa [List.append_assoc, List.singleton_append] at rest

/-! ### Lists of the same elements -/

/-- The list without its elements. -/
def heading (list : ElementList) : ElementList :=
  { list with elements := [] }

/-- Two lists of the same type with the same elements, perhaps in another order. -/
structure Alike (first second : ElementList) : Prop where
  tagType : first.tagType = second.tagType
  title : first.title = second.title
  listOrder : first.listOrder = second.listOrder
  elements : first.elements.Perm second.elements

theorem Gathered.mem_map_snd {table : TagTable} {elements : List Element}
    {lists : Entries String ElementList} (gathered : Gathered table elements lists)
    {list : ElementList} :
    list ∈ lists.map Prod.snd ↔ ∃ tagType, list.IsOf table elements tagType := by
  simp only [← gathered.holds, List.mem_map, Prod.exists, exists_eq_right]
  exact exists_congr fun tagType =>
    ⟨Entries.get?_of_mem gathered.distinct, Entries.mem_of_get?⟩

/-- No two headings are the same, as no two lists are of the same type. -/
theorem Gathered.nodup_headings {table : TagTable} {elements : List Element}
    {lists : Entries String ElementList} (gathered : Gathered table elements lists) :
    ((lists.map Prod.snd).map heading).Nodup := by
  have types : ((lists.map Prod.snd).map heading).map ElementList.tagType =
      Entries.keys lists := by
    rw [List.map_map, List.map_map]
    refine List.map_congr_left fun entry member => ?_
    have found := Entries.get?_of_mem gathered.distinct
      (show (entry.1, entry.2) ∈ lists from member)
    exact ((gathered.holds entry.1 entry.2).mp found).tagType
  exact List.Nodup.of_map ElementList.tagType (types.symm ▸ gathered.distinct)

/-- Headings that were gathered from elements with the same paths of a type are the same. -/
theorem IsOf.exists_alike {table : TagTable} {elements others : List Element}
    (same : ∀ tagType, (pathsOfType elements tagType).Perm (pathsOfType others tagType))
    {list : ElementList} {tagType : String} (isOf : list.IsOf table elements tagType) :
    ∃ other : ElementList, other.IsOf table others tagType ∧ list.Alike other := by
  refine ⟨{ list with elements := pathsOfType others tagType },
    ⟨isOf.listed, ?_, isOf.title, isOf.listOrder, rfl, isOf.tagType⟩, rfl, rfl, rfl, ?_⟩
  · intro empty
    have alsoEmpty := same tagType
    rw [empty] at alsoEmpty
    exact isOf.nonempty alsoEmpty.eq_nil
  · rw [isOf.elements]
    exact same tagType

theorem Alike.heading_eq {first second : ElementList} (alike : first.Alike second) :
    first.heading = second.heading := by
  rw [heading, heading, alike.tagType, alike.title, alike.listOrder]

theorem Gathered.mem_headings_of_perm {table : TagTable} {elements others : List Element}
    {lists otherLists : Entries String ElementList} (gathered : Gathered table elements lists)
    (otherGathered : Gathered table others otherLists)
    (same : ∀ tagType, (pathsOfType elements tagType).Perm (pathsOfType others tagType))
    {list : ElementList} (member : list ∈ (lists.map Prod.snd).map heading) :
    list ∈ (otherLists.map Prod.snd).map heading := by
  obtain ⟨own, inside, rfl⟩ := List.mem_map.mp member
  obtain ⟨tagType, isOf⟩ := gathered.mem_map_snd.mp inside
  obtain ⟨other, otherIsOf, alike⟩ := isOf.exists_alike same
  rw [alike.heading_eq]
  exact List.mem_map_of_mem (otherGathered.mem_map_snd.mpr ⟨tagType, otherIsOf⟩)

/-- Lists that are related item by item, because they agree in a value that tells how. -/
theorem forall₂_of_map_eq {Item Value : Type} {value : Item → Value}
    {related : Item → Item → Prop} {first second : List Item}
    (same : first.map value = second.map value)
    (each : ∀ item ∈ first, ∀ other ∈ second, value item = value other → related item other) :
    List.Forall₂ related first second := by
  induction first generalizing second with
  | nil =>
    obtain rfl := List.map_eq_nil_iff.mp same.symm
    exact .nil
  | cons item first inductionHypothesis =>
    obtain ⟨other, others, rfl, sameHead, sameTail⟩ := List.map_eq_cons_iff.mp same.symm
    refine .cons (each item List.mem_cons_self other List.mem_cons_self sameHead.symm) ?_
    exact inductionHypothesis sameTail.symm fun own member partner inside =>
      each own (List.mem_cons_of_mem _ member) partner (List.mem_cons_of_mem _ inside)

/-- From the same elements of each type, in whatever order, come the same lists in the same
order. -/
theorem Gathered.forall₂_alike {table : TagTable} {elements others : List Element}
    {lists otherLists : Entries String ElementList} (gathered : Gathered table elements lists)
    (otherGathered : Gathered table others otherLists)
    (same : ∀ tagType, (pathsOfType elements tagType).Perm (pathsOfType others tagType)) :
    List.Forall₂ Alike ((lists.map Prod.snd).mergeSort notAfter)
      ((otherLists.map Prod.snd).mergeSort notAfter) := by
  have back : ∀ tagType, (pathsOfType others tagType).Perm (pathsOfType elements tagType) :=
    fun tagType => (same tagType).symm
  have reordered : ((lists.map Prod.snd).map heading).Perm
      ((otherLists.map Prod.snd).map heading) :=
    (List.perm_ext_iff_of_nodup gathered.nodup_headings otherGathered.nodup_headings).mpr
      fun list => ⟨gathered.mem_headings_of_perm otherGathered same,
        otherGathered.mem_headings_of_perm gathered back⟩
  -- The headings are sorted like the lists, and an order without ties sorts them in one way.
  have sortedHeadings (lists : List ElementList) :
      (lists.mergeSort notAfter).map heading = (lists.map heading).mergeSort notAfter :=
    List.map_mergeSort fun _ _ _ _ => rfl
  have sameHeadings : ((lists.map Prod.snd).mergeSort notAfter).map heading =
      ((otherLists.map Prod.snd).mergeSort notAfter).map heading := by
    rw [sortedHeadings, sortedHeadings]
    refine List.Perm.eq_of_pairwise ?_ (List.pairwise_mergeSort notAfter_trans notAfter_total _)
      (List.pairwise_mergeSort notAfter_trans notAfter_total _)
      ((List.mergeSort_perm _ _).trans (reordered.trans (List.mergeSort_perm _ _).symm))
    intro first second inFirst inSecond before after
    have inOther := reordered.mem_iff.mp (List.mem_mergeSort.mp inFirst)
    obtain ⟨own, inside, rfl⟩ := List.mem_map.mp inOther
    obtain ⟨partner, alsoInside, rfl⟩ := List.mem_map.mp (List.mem_mergeSort.mp inSecond)
    obtain ⟨tagType, isOf⟩ := otherGathered.mem_map_snd.mp inside
    obtain ⟨otherType, otherIsOf⟩ := otherGathered.mem_map_snd.mp alsoInside
    have sameType : own.tagType = partner.tagType := tagType_eq_of_notAfter before after
    rw [isOf.tagType, otherIsOf.tagType] at sameType
    subst sameType
    rw [isOf.eq otherIsOf]
  refine forall₂_of_map_eq sameHeadings fun list member other otherMember sameHeading => ?_
  obtain ⟨tagType, isOf⟩ := gathered.mem_map_snd.mp (List.mem_mergeSort.mp member)
  obtain ⟨otherType, otherIsOf⟩ :=
    otherGathered.mem_map_snd.mp (List.mem_mergeSort.mp otherMember)
  have sameType : list.heading.tagType = other.heading.tagType :=
    congrArg ElementList.tagType sameHeading
  rw [heading, heading] at sameType
  rw [isOf.tagType, otherIsOf.tagType] at sameType
  subst sameType
  obtain ⟨partner, partnerIsOf, alike⟩ := isOf.exists_alike same
  rwa [partnerIsOf.eq otherIsOf] at alike

end ElementList

/-- The lists of a tree are those gathered from its elements, in order. -/
theorem DocTree.exists_gathered_of_lists {tree : DocTree} {table : TagTable}
    {result : List ElementList} (made : tree.lists table = .ok result) :
    ∃ lists, ElementList.Gathered table tree.elements lists ∧
      result = (lists.map Prod.snd).mergeSort ElementList.notAfter := by
  have nothing : ElementList.Gathered table [] [] := by
    refine ⟨List.nodup_nil, fun tagType list => ⟨nofun, fun isOf => absurd rfl isOf.nonempty⟩⟩
  obtain ⟨lists, folded, made⟩ := exists_ok_of_bind made
  have gathered := nothing.foldlM folded
  rw [List.nil_append] at gathered
  exact ⟨lists, gathered, (Except.ok.inj made).symm⟩

/-- Trees with the same elements of each type, in whatever order, have the same lists in the same
order. -/
theorem DocTree.forall₂_alike_of_lists {first second : DocTree} {table : TagTable}
    {lists others : List ElementList} (made : first.lists table = .ok lists)
    (otherMade : second.lists table = .ok others)
    (same : ∀ tagType, (ElementList.pathsOfType first.elements tagType).Perm
      (ElementList.pathsOfType second.elements tagType)) :
    List.Forall₂ ElementList.Alike lists others := by
  obtain ⟨entries, gathered, rfl⟩ := exists_gathered_of_lists made
  obtain ⟨otherEntries, otherGathered, rfl⟩ := exists_gathered_of_lists otherMade
  exact gathered.forall₂_alike otherGathered same

end DocComments
