/-
This file proves that a tree is always in order and that walking through it comes to
everything.

The invariant is that every element stands where its path says: under its own name, which has
no dot, with the path of its parent before it, and next to siblings of other names. A
placeholder is made in order, and a call only ever changes what is declared, so every call
keeps the invariant.

In a tree that is in order a path leads to one element only. The walk keeps a stack of levels;
what is still to come is what the stack holds, read from the top, so the walk visits the
elements in preorder. Put together, the elements that a walk comes to are exactly those that
paths lead to, each of them once, and there are as many as the paths of the calls have
beginnings.
-/

import DocComments.Proofs.TreeMerge
import Mathlib.Data.Finset.Card
import Mathlib.Data.List.Infix

namespace DocComments

namespace Element

/-! ### Elements in their places -/

/-- An element is placed under a key when the key is its name, without a dot, and its path is the
path of the parent with that name after it. -/
structure Placed (parent : Option String) (key : String) (element : Element) : Prop where
  name : element.name = key
  dotless : '.' ∉ key.toList
  path : element.path = pathBelow parent key

/-- Siblings are well placed when their keys are different and each of them is placed, with well
placed siblings below it. -/
inductive WellPlaced : Option String → List (String × Element) → Prop where
  | intro {parent : Option String} {siblings : List (String × Element)}
      (distinct : (Entries.keys siblings).Nodup)
      (placed : ∀ key element, (key, element) ∈ siblings → Placed parent key element)
      (below : ∀ key element, (key, element) ∈ siblings →
        WellPlaced (some element.path) element.children) :
      WellPlaced parent siblings

theorem wellPlaced_nil (parent : Option String) : WellPlaced parent [] :=
  .intro List.nodup_nil (fun _ _ member => absurd member List.not_mem_nil)
    fun _ _ member => absurd member List.not_mem_nil

/-- An element is in place when it is placed and what is below it is well placed. -/
def InPlace (parent : Option String) (key : String) (element : Element) : Prop :=
  Placed parent key element ∧ WellPlaced (some element.path) element.children

theorem WellPlaced.inPlace {parent : Option String} {siblings : List (String × Element)}
    (ordered : WellPlaced parent siblings) {key : String} {element : Element}
    (member : (key, element) ∈ siblings) : InPlace parent key element := by
  obtain ⟨-, placed, below⟩ := ordered
  exact ⟨placed key element member, below key element member⟩

/-- The element that altering starts from is in place, be it found or made. -/
theorem WellPlaced.inPlace_getD {parent : Option String} {siblings : List (String × Element)}
    (ordered : WellPlaced parent siblings) {name : String} (dotless : '.' ∉ name.toList) :
    InPlace parent name
      ((Entries.get? siblings name).getD (placeholder (pathBelow parent name) name)) := by
  cases found : Entries.get? siblings name with
  | none => exact ⟨⟨rfl, dotless, rfl⟩, wellPlaced_nil _⟩
  | some element => exact ordered.inPlace (Entries.mem_of_get? found)

theorem WellPlaced.alter {parent : Option String} {siblings : List (String × Element)}
    (ordered : WellPlaced parent siblings) {name : String} {change : Option Element → Element}
    (changed : InPlace parent name (change (Entries.get? siblings name))) :
    WellPlaced parent (Entries.alter change siblings name) := by
  have each : ∀ key element, (key, element) ∈ Entries.alter change siblings name →
      InPlace parent key element := by
    intro key element member
    rcases Entries.mem_alter member with old | ⟨rfl, rfl⟩
    · exact ordered.inPlace old
    · exact changed
  obtain ⟨distinct, -, -⟩ := ordered
  exact .intro (Entries.nodup_keys_alter _ distinct name)
    (fun key element member => (each key element member).1)
    fun key element member => (each key element member).2

/-- Altering along a path without dots keeps siblings well placed. The induction is on the path,
because the level that is altered next is that of the element which the first name leads to. -/
theorem WellPlaced.alterAt {change : Element → Element} (keeps : KeepsPlace change)
    {parent : Option String} {path : List String} (dotless : ∀ name ∈ path, '.' ∉ name.toList)
    {siblings : List (String × Element)} (ordered : WellPlaced parent siblings) :
    WellPlaced parent (Element.alterAt change parent path siblings) := by
  induction path generalizing parent siblings with
  | nil => exact ordered
  | cons name rest inductionHypothesis =>
    have nameDotless := dotless name List.mem_cons_self
    have restDotless := fun other member => dotless other (List.mem_cons_of_mem _ member)
    obtain ⟨placed, below⟩ := ordered.inPlace_getD nameDotless
    rw [alterAt_cons]
    refine ordered.alter ?_
    cases rest with
    | nil =>
      refine ⟨⟨?_, nameDotless, ?_⟩, ?_⟩
      · rw [altered, keeps.name, placed.name]
      · rw [altered, keeps.path, placed.path]
      · rw [altered, keeps.path, keeps.children]
        exact below
    | cons next rest =>
      exact ⟨⟨placed.name, nameDotless, placed.path⟩, inductionHypothesis restDotless below⟩

end Element

/-- Every tree that calls can make is in order. -/
theorem DocTree.wellPlaced_afterCalls (calls : List TreeCall) :
    Element.WellPlaced none (DocTree.afterCalls calls).roots := by
  induction calls using List.reverseRecOn with
  | nil => exact Element.wellPlaced_nil none
  | append_singleton calls call inductionHypothesis =>
    obtain ⟨change, keeps, roots⟩ := TreeCall.apply_roots (DocTree.afterCalls calls) call
    rw [DocTree.afterCalls_concat, roots]
    exact inductionHypothesis.alterAt keeps fun _ => Text.dot_notMem_of_mem_segments

namespace Element

/-! ### Where an element stands -/

/-- An element stands under a key below elements of these names, from the topmost on. -/
inductive Stands : List (String × Element) → List String → String → Element → Prop where
  | top {siblings : List (String × Element)} {key : String} {element : Element}
      (member : (key, element) ∈ siblings) : Stands siblings [] key element
  | deeper {siblings : List (String × Element)} {parentKey key : String}
      {parent element : Element} {above : List String}
      (member : (parentKey, parent) ∈ siblings)
      (inside : Stands parent.children above key element) :
      Stands siblings (parent.name :: above) key element

theorem notStands_nil (above : List String) (key : String) (element : Element) :
    ¬ Stands [] above key element := by
  intro stands
  cases stands with
  | top member => exact List.not_mem_nil member
  | deeper member inside => exact List.not_mem_nil member

/-- The segments of the path above a level. -/
def segmentsAbove : Option String → List String
  | none => []
  | some path => Text.segments path

theorem Placed.segments_path {parent : Option String} {key : String} {element : Element}
    (placed : Placed parent key element) :
    Text.segments element.path = segmentsAbove parent ++ [key] := by
  rw [placed.path]
  cases parent with
  | none => exact Text.segments_of_dotless placed.dotless
  | some path =>
    rw [pathBelow, Text.segments_append_dot, Text.segments_of_dotless placed.dotless,
      segmentsAbove]

/-- In well placed siblings an element stands under its name, its path is made of the names that
lead to it, and these lead to no other element. -/
theorem Stands.spec {siblings : List (String × Element)} {above : List String} {key : String}
    {element : Element} (stands : Stands siblings above key element) {parent : Option String}
    (ordered : WellPlaced parent siblings) :
    element.name = key ∧ '.' ∉ key.toList ∧
      Text.segments element.path = segmentsAbove parent ++ (above ++ [key]) ∧
      findAt? (above ++ [key]) siblings = some element := by
  induction stands generalizing parent with
  | top member =>
    obtain ⟨distinct, placed, -⟩ := ordered
    have place := placed _ _ member
    exact ⟨place.name, place.dotless, place.segments_path, Entries.get?_of_mem distinct member⟩
  | deeper member inside inductionHypothesis =>
    obtain ⟨distinct, placed, below⟩ := ordered
    obtain ⟨name, dotless, path, found⟩ := inductionHypothesis (below _ _ member)
    have place := placed _ _ member
    refine ⟨name, dotless, ?_, ?_⟩
    · rw [path, segmentsAbove, place.segments_path, place.name, List.append_assoc]
      rfl
    · rw [place.name, List.cons_append, findAt?_cons (by simp), childrenOf,
        Entries.get?_of_mem distinct member]
      exact found

/-- In well placed siblings names lead to an element only if it stands below them. -/
theorem WellPlaced.stands_of_findAt? {parent : Option String} {siblings : List (String × Element)}
    (ordered : WellPlaced parent siblings) {above : List String} {key : String}
    {element : Element} (found : findAt? (above ++ [key]) siblings = some element) :
    Stands siblings above key element := by
  induction above generalizing parent siblings with
  | nil => exact .top (Entries.mem_of_get? found)
  | cons name above inductionHypothesis =>
    rw [List.cons_append, findAt?_cons (by simp), childrenOf] at found
    cases first : Entries.get? siblings name with
    | none =>
      rw [first, Option.map_none, Option.getD_none] at found
      exact absurd (inductionHypothesis (wellPlaced_nil none) found) (notStands_nil _ _ _)
    | some root =>
      rw [first] at found
      have member := Entries.mem_of_get? first
      obtain ⟨placed, below⟩ := ordered.inPlace member
      rw [← placed.name]
      exact .deeper member (inductionHypothesis below found)

/-! ### What the preorder holds -/

theorem preorderAll_eq_flatMap (siblings : List (String × Element)) :
    preorderAll siblings =
      siblings.flatMap fun entry => entry.2 :: preorderAll entry.2.children := by
  induction siblings with
  | nil => rw [preorderAll, List.flatMap_nil]
  | cons entry siblings inductionHypothesis =>
    rw [preorderAll, preorder_eq, inductionHypothesis, List.flatMap_cons]

theorem mem_preorderAll {siblings : List (String × Element)} {element : Element} :
    element ∈ preorderAll siblings ↔
      ∃ key root, (key, root) ∈ siblings ∧
        (element = root ∨ element ∈ preorderAll root.children) := by
  rw [preorderAll_eq_flatMap, List.mem_flatMap]
  simp only [Prod.exists, List.mem_cons]

theorem Stands.mem_preorderAll {siblings : List (String × Element)} {above : List String}
    {key : String} {element : Element} (stands : Stands siblings above key element) :
    element ∈ preorderAll siblings := by
  induction stands with
  | top member => exact Element.mem_preorderAll.mpr ⟨_, _, member, Or.inl rfl⟩
  | deeper member inside inductionHypothesis =>
    exact Element.mem_preorderAll.mpr ⟨_, _, member, Or.inr inductionHypothesis⟩

theorem WellPlaced.stands_of_mem {parent : Option String} {siblings : List (String × Element)}
    (ordered : WellPlaced parent siblings) {element : Element}
    (member : element ∈ preorderAll siblings) :
    ∃ above key, Stands siblings above key element := by
  induction ordered with
  | intro distinct placed below inductionHypothesis =>
    obtain ⟨key, root, rootMember, rfl | inside⟩ := mem_preorderAll.mp member
    · exact ⟨[], key, .top rootMember⟩
    · obtain ⟨above, ownKey, stands⟩ := inductionHypothesis key root rootMember inside
      exact ⟨root.name :: above, ownKey, .deeper rootMember stands⟩

/-- An element at or below a placed one has a path that goes through it. -/
theorem InPlace.segments_of_mem {parent : Option String} {key : String} {root : Element}
    (place : InPlace parent key root) {element : Element}
    (member : element ∈ root :: preorderAll root.children) :
    ∃ rest, Text.segments element.path = segmentsAbove parent ++ key :: rest ∧
      (element ∈ preorderAll root.children → rest ≠ []) := by
  obtain ⟨placed, below⟩ := place
  have deeper : element ∈ preorderAll root.children →
      ∃ rest, Text.segments element.path = segmentsAbove parent ++ key :: rest ∧ rest ≠ [] := by
    intro inside
    obtain ⟨above, ownKey, stands⟩ := below.stands_of_mem inside
    refine ⟨above ++ [ownKey], ?_, by simp⟩
    rw [(stands.spec below).2.2.1, segmentsAbove, placed.segments_path, List.append_assoc]
    rfl
  by_cases inside : element ∈ preorderAll root.children
  · obtain ⟨rest, path, nonempty⟩ := deeper inside
    exact ⟨rest, path, fun _ => nonempty⟩
  · obtain rfl : element = root := (List.mem_cons.mp member).resolve_right inside
    exact ⟨[], placed.segments_path, fun wrong => absurd wrong inside⟩

/-- No two elements of well placed siblings have the same path. -/
theorem WellPlaced.nodup_paths {parent : Option String} {siblings : List (String × Element)}
    (ordered : WellPlaced parent siblings) : ((preorderAll siblings).map path).Nodup := by
  induction ordered with
  | @intro parent siblings distinct placed below inductionHypothesis =>
    have place : ∀ entry ∈ siblings, InPlace parent entry.1 entry.2 := fun entry member =>
      ⟨placed entry.1 entry.2 member, below entry.1 entry.2 member⟩
    rw [preorderAll_eq_flatMap, List.map_flatMap, List.nodup_flatMap]
    constructor
    · intro entry member
      rw [List.map_cons, List.nodup_cons]
      refine ⟨?_, inductionHypothesis entry.1 entry.2 member⟩
      intro repeated
      obtain ⟨element, inside, samePath⟩ := List.mem_map.mp repeated
      obtain ⟨rest, path, nonempty⟩ :=
        (place entry member).segments_of_mem (List.mem_cons_of_mem _ inside)
      rw [samePath, (place entry member).1.segments_path] at path
      exact nonempty inside (List.cons.inj (List.append_cancel_left path)).2.symm
    · have keysDiffer : siblings.Pairwise fun first second => first.1 ≠ second.1 :=
        List.pairwise_map.mp distinct
      refine keysDiffer.imp_of_mem fun {first second} firstMember secondMember different => ?_
      intro path inFirst inSecond
      obtain ⟨element, member, rfl⟩ := List.mem_map.mp inFirst
      obtain ⟨other, otherMember, samePath⟩ := List.mem_map.mp inSecond
      obtain ⟨rest, segments, -⟩ := (place first firstMember).segments_of_mem member
      obtain ⟨otherRest, otherSegments, -⟩ :=
        (place second secondMember).segments_of_mem otherMember
      rw [samePath, segments] at otherSegments
      exact different (List.cons.inj (List.append_cancel_left otherSegments)).1

end Element

/-! ### The walk -/

theorem Walk.remaining_of_next?_eq_none {walk : Walk} (ended : walk.next? = none) :
    walk.remaining = [] := by
  fun_induction Walk.next? walk with
  | case1 => rfl
  | case2 walk inductionHypothesis =>
    rw [Walk.remaining, List.flatMap_cons, Element.preorderAll, List.nil_append]
    exact inductionHypothesis ended
  | case3 => cases ended

/-- A walk comes to what its stack holds, in preorder. -/
theorem Walk.elements_eq_remaining (walk : Walk) : walk.elements = walk.remaining := by
  fun_induction Walk.elements walk with
  | case1 walk ended => rw [Walk.remaining_of_next?_eq_none ended]
  | case2 walk element later next inductionHypothesis =>
    rw [inductionHypothesis, Walk.remaining_of_next? next]

namespace DocTree

theorem elements_eq_preorderAll (tree : DocTree) :
    tree.elements = Element.preorderAll tree.roots := by
  rw [elements, Walk.elements_eq_remaining, Walk.remaining, List.flatMap_singleton]

theorem mem_elements_afterCalls (calls : List TreeCall) (element : Element) :
    element ∈ (afterCalls calls).elements ↔
      ∃ above key, Element.Stands (afterCalls calls).roots above key element := by
  rw [elements_eq_preorderAll]
  constructor
  · exact (wellPlaced_afterCalls calls).stands_of_mem
  · rintro ⟨above, key, stands⟩
    exact stands.mem_preorderAll

theorem stands_of_get? {calls : List TreeCall} {path : String} {element : Element}
    (found : (afterCalls calls).get? path = some element) :
    ∃ above key, Text.segments path = above ++ [key] ∧
      Element.Stands (afterCalls calls).roots above key element := by
  obtain ⟨above, key, segments⟩ :=
    (List.eq_nil_or_concat _).resolve_left (Text.segments_ne_nil path)
  rw [List.concat_eq_append] at segments
  rw [get?, segments] at found
  exact ⟨above, key, segments, (wellPlaced_afterCalls calls).stands_of_findAt? found⟩

/-- The path of an element leads back to it. -/
theorem get?_path_of_stands {calls : List TreeCall} {above : List String} {key : String}
    {element : Element} (stands : Element.Stands (afterCalls calls).roots above key element) :
    Text.segments element.path = above ++ [key] ∧
      (afterCalls calls).get? element.path = some element := by
  obtain ⟨-, -, segments, found⟩ := stands.spec (wellPlaced_afterCalls calls)
  rw [Element.segmentsAbove, List.nil_append] at segments
  refine ⟨segments, ?_⟩
  rw [get?, segments]
  exact found

/-- The beginnings of the paths of calls, as lists of segments. -/
def beginnings (calls : List TreeCall) : Finset (List String) :=
  (calls.flatMap fun call => (Text.segments call.path).inits.filter (· ≠ [])).toFinset

theorem mem_beginnings {calls : List TreeCall} {names : List String} :
    names ∈ beginnings calls ↔
      names ≠ [] ∧ ∃ call ∈ calls, names <+: Text.segments call.path := by
  simp only [beginnings, List.mem_toFinset, List.mem_flatMap, List.mem_filter, List.mem_inits,
    decide_eq_true_eq]
  constructor
  · rintro ⟨call, member, start, nonempty⟩
    exact ⟨nonempty, call, member, start⟩
  · rintro ⟨nonempty, call, member, start⟩
    exact ⟨call, member, start, nonempty⟩

/-- The paths of the elements are the beginnings of the paths of the calls. -/
theorem toFinset_segments_elements (calls : List TreeCall) :
    ((afterCalls calls).elements.map fun element => Text.segments element.path).toFinset =
      beginnings calls := by
  ext names
  rw [List.mem_toFinset, List.mem_map, mem_beginnings]
  constructor
  · rintro ⟨element, member, rfl⟩
    obtain ⟨above, key, stands⟩ := (mem_elements_afterCalls calls element).mp member
    have found := (get?_path_of_stands stands).2
    have nonempty := Text.segments_ne_nil element.path
    refine ⟨nonempty, (isSome_findAt?_afterCalls calls nonempty).mp ?_⟩
    rw [← get?, found, Option.isSome_some]
  · rintro ⟨nonempty, start⟩
    obtain ⟨above, key, rfl⟩ := (List.eq_nil_or_concat names).resolve_left nonempty
    rw [List.concat_eq_append] at nonempty start ⊢
    obtain ⟨element, found⟩ :=
      Option.isSome_iff_exists.mp ((isSome_findAt?_afterCalls calls nonempty).mpr start)
    have stands := (wellPlaced_afterCalls calls).stands_of_findAt? found
    exact ⟨element, (mem_elements_afterCalls calls element).mpr ⟨above, key, stands⟩,
      (get?_path_of_stands stands).1⟩

theorem nodup_paths_elements (calls : List TreeCall) :
    ((afterCalls calls).elements.map Element.path).Nodup := by
  rw [elements_eq_preorderAll]
  exact (wellPlaced_afterCalls calls).nodup_paths

theorem size_afterCalls (calls : List TreeCall) :
    (afterCalls calls).size = (beginnings calls).card := by
  have distinct :
      ((afterCalls calls).elements.map fun element => Text.segments element.path).Nodup := by
    have paths := (nodup_paths_elements calls).map Text.segments_injective
    rwa [List.map_map] at paths
  rw [← toFinset_segments_elements, List.toFinset_card_of_nodup distinct, List.length_map, size]

/-- In every tree that calls can make an element is stored under its name, no name has a dot,
and the path of an element is made of the names from the top down to it. The walk with its
stack of levels comes to every element, in preorder and with siblings in the order in which
they were made; no path comes twice; the path of every element leads back to it, and to where a
path leads the walk comes too; and there are as many elements as the paths of the calls have
beginnings. -/
theorem afterCalls_inOrder (calls : List TreeCall) :
    (∀ above key element, Element.Stands (afterCalls calls).roots above key element →
      key = element.name ∧ '.' ∉ element.name.toList ∧
        element.path = Text.joinSegments (above ++ [element.name])) ∧
    (∀ element, element ∈ (afterCalls calls).elements ↔
      ∃ above key, Element.Stands (afterCalls calls).roots above key element) ∧
    (afterCalls calls).elements = Element.preorderAll (afterCalls calls).roots ∧
    (∀ names, Entries.keys (Element.childrenAt names (afterCalls calls).roots) =
      (calls.filterMap fun call => nextSegment? names (Text.segments call.path)).eraseDups) ∧
    ((afterCalls calls).elements.map Element.path).Nodup ∧
    (∀ element ∈ (afterCalls calls).elements,
      (afterCalls calls).get? element.path = some element) ∧
    (∀ path element, (afterCalls calls).get? path = some element →
      element ∈ (afterCalls calls).elements) ∧
    (afterCalls calls).size = (beginnings calls).card := by
  refine ⟨?_, mem_elements_afterCalls calls, elements_eq_preorderAll _,
    keys_childrenAt_afterCalls calls, nodup_paths_elements calls, ?_, ?_, size_afterCalls calls⟩
  · intro above key element stands
    obtain ⟨rfl, dotless, -, -⟩ := stands.spec (wellPlaced_afterCalls calls)
    refine ⟨rfl, dotless, ?_⟩
    rw [← (get?_path_of_stands stands).1, Text.joinSegments_segments]
  · intro element member
    obtain ⟨above, key, stands⟩ := (mem_elements_afterCalls calls element).mp member
    exact (get?_path_of_stands stands).2
  · intro path element found
    obtain ⟨above, key, -, stands⟩ := stands_of_get? found
    exact (mem_elements_afterCalls calls element).mpr ⟨above, key, stands⟩

end DocTree

end DocComments
