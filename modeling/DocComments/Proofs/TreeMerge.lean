/-
This file proves what a tree holds after any run of calls that grow it.

A call names a path, makes what is missing on the way and changes the element at the path. Seen
level by level, a call does three things: it adds the next segment of its path to the names of
a level it passes, unless it is there; it changes the declaration at its own path; and it
leaves every other level and every other declaration alone. These are statements about one
call, and every statement about a whole run follows from them by adding one call at the end.

The result is that a run is remembered exactly: the elements are the beginnings of the paths,
the declaration at a path is the last one merged there, and the names of a level stand in the
order in which the paths first used them.
-/

import DocComments.Element.Tree
import DocComments.Proofs.Entries
import DocComments.Proofs.Segments
import Mathlib.Data.List.Induction

namespace DocComments

namespace Element

/-! ### Levels of a tree -/

/-- The children of the sibling of a name; a sibling that is missing has none. -/
def childrenOf (siblings : List (String × Element)) (name : String) : List (String × Element) :=
  ((Entries.get? siblings name).map children).getD []

/-- The level that the names lead to from these siblings on. -/
def childrenAt (names : List String) (siblings : List (String × Element)) :
    List (String × Element) :=
  names.foldl childrenOf siblings

/-- The declaration of the sibling of a name, if it is there and has one. -/
def declarationOf (siblings : List (String × Element)) (name : String) : Option Declaration :=
  (Entries.get? siblings name).bind declaration

theorem childrenAt_concat (names : List String) (name : String)
    (siblings : List (String × Element)) :
    childrenAt (names ++ [name]) siblings = childrenOf (childrenAt names siblings) name := by
  rw [childrenAt, List.foldl_append]
  rfl

theorem findAt?_cons {names : List String} (nonempty : names ≠ []) (name : String)
    (siblings : List (String × Element)) :
    findAt? (name :: names) siblings = findAt? names (childrenOf siblings name) := by
  obtain ⟨next, rest, rfl⟩ := List.exists_cons_of_ne_nil nonempty
  rw [findAt?, childrenOf]
  cases Entries.get? siblings name with
  | some element => rfl
  | none =>
    cases rest with
    | nil => rfl
    | cons => rfl

/-- To find an element is to go to the level above it and to look for its name there. -/
theorem findAt?_concat (names : List String) (name : String)
    (siblings : List (String × Element)) :
    findAt? (names ++ [name]) siblings = Entries.get? (childrenAt names siblings) name := by
  induction names generalizing siblings with
  | nil => rfl
  | cons first names inductionHypothesis =>
    rw [List.cons_append, findAt?_cons (by simp), inductionHypothesis]
    rfl

theorem childrenAt_of_findAt? {names : List String} {siblings : List (String × Element)}
    {element : Element} (found : findAt? names siblings = some element) :
    childrenAt names siblings = element.children := by
  rcases List.eq_nil_or_concat names with rfl | ⟨above, name, rfl⟩
  · cases found
  · rw [List.concat_eq_append] at found ⊢
    rw [findAt?_concat] at found
    rw [childrenAt_concat, childrenOf, found]
    rfl

/-! ### One call, one level -/

/-- A change that leaves an element in its place: it may only change what is declared. -/
structure KeepsPlace (change : Element → Element) : Prop where
  path : ∀ element, (change element).path = element.path
  name : ∀ element, (change element).name = element.name
  children : ∀ element, (change element).children = element.children

theorem keepsPlace_id : KeepsPlace id :=
  ⟨fun _ => rfl, fun _ => rfl, fun _ => rfl⟩

theorem keepsPlace_declare (declaration : Declaration) : KeepsPlace (declare declaration) :=
  ⟨fun _ => rfl, fun _ => rfl, fun _ => rfl⟩

/-- What altering puts under the first name: the element that was there or a placeholder,
changed if the path ends here, and with altered children if it goes on. -/
def altered (change : Element → Element) (parent : Option String) (name : String)
    (rest : List String) (found : Option Element) : Element :=
  let element := found.getD (placeholder (pathBelow parent name) name)
  match rest with
  | [] => change element
  | _ :: _ =>
    { element with children := alterAt change (some element.path) rest element.children }

theorem alterAt_cons (change : Element → Element) (parent : Option String) (name : String)
    (rest : List String) (siblings : List (String × Element)) :
    alterAt change parent (name :: rest) siblings =
      Entries.alter (altered change parent name rest) siblings name := by
  cases rest with
  | nil => rfl
  | cons => rfl

theorem children_altered {change : Element → Element} (keeps : KeepsPlace change)
    (parent : Option String) (name : String) (rest : List String) (found : Option Element) :
    ∃ above, (altered change parent name rest found).children =
      alterAt change above rest ((found.map children).getD []) := by
  have before : (found.getD (placeholder (pathBelow parent name) name)).children =
      (found.map children).getD [] := by
    cases found with
    | none => rfl
    | some => rfl
  cases rest with
  | nil =>
    refine ⟨none, ?_⟩
    rw [altered, keeps.children, before, alterAt]
  | cons => exact ⟨_, congrArg _ before⟩

/-- The level below the first name is altered along the rest of the path. -/
theorem childrenOf_alterAt_self {change : Element → Element} (keeps : KeepsPlace change)
    (parent : Option String) (name : String) (rest : List String)
    (siblings : List (String × Element)) :
    ∃ above, childrenOf (alterAt change parent (name :: rest) siblings) name =
      alterAt change above rest (childrenOf siblings name) := by
  obtain ⟨above, below⟩ :=
    children_altered keeps parent name rest (Entries.get? siblings name)
  refine ⟨above, ?_⟩
  rw [alterAt_cons, childrenOf, Entries.get?_alter_self]
  exact below

theorem childrenOf_alterAt_of_ne (change : Element → Element) (parent : Option String)
    {name other : String} (different : other ≠ name) (rest : List String)
    (siblings : List (String × Element)) :
    childrenOf (alterAt change parent (name :: rest) siblings) other =
      childrenOf siblings other := by
  rw [alterAt_cons, childrenOf, Entries.get?_alter_of_ne _ _ different, childrenOf]

theorem declarationOf_alterAt_of_ne (change : Element → Element) (parent : Option String)
    {name other : String} (different : other ≠ name) (rest : List String)
    (siblings : List (String × Element)) :
    declarationOf (alterAt change parent (name :: rest) siblings) other =
      declarationOf siblings other := by
  rw [alterAt_cons, declarationOf, Entries.get?_alter_of_ne _ _ different, declarationOf]

/-- The declaration at the first name changes if and only if the path ends there. -/
theorem declarationOf_alterAt_self {change : Element → Element}
    {update : Option Declaration → Option Declaration}
    (updates : ∀ element, (change element).declaration = update element.declaration)
    (parent : Option String) (name : String) (rest : List String)
    (siblings : List (String × Element)) :
    declarationOf (alterAt change parent (name :: rest) siblings) name =
      if rest = [] then update (declarationOf siblings name)
      else declarationOf siblings name := by
  have before : ((Entries.get? siblings name).getD
      (placeholder (pathBelow parent name) name)).declaration = declarationOf siblings name := by
    rw [declarationOf]
    cases Entries.get? siblings name with
    | none => rfl
    | some => rfl
  rw [alterAt_cons, declarationOf, Entries.get?_alter_self, Option.bind_some]
  cases rest with
  | nil => rw [altered, updates, before, if_pos rfl]
  | cons => rw [altered, before, if_neg (List.cons_ne_nil _ _)]

end Element

/-! ### One call, the whole tree -/

/-- The segment that comes next in a path after these names, if the path begins with them and
goes on. -/
def nextSegment? : List String → List String → Option String
  | [], path => path.head?
  | _ :: _, [] => none
  | name :: names, segment :: path => if segment = name then nextSegment? names path else none

theorem nextSegment?_eq_some_iff {names path : List String} {name : String} :
    nextSegment? names path = some name ↔ names ++ [name] <+: path := by
  fun_induction nextSegment? names path with
  | case1 path =>
    rw [List.nil_append, List.singleton_prefix_iff_head?_eq_some]
  | case2 first names => simp
  | case3 first names path inductionHypothesis =>
    rw [inductionHypothesis, List.cons_append, List.cons_prefix_cons]
    simp
  | case4 first names segment path different =>
    simp [List.cons_prefix_cons, Ne.symm different]

/-- Names with one more name at the end, unless it is among them or there is none to add. -/
def addName (names : List String) : Option String → List String
  | none => names
  | some name => if name ∈ names then names else names ++ [name]

namespace Element

theorem childrenAt_cons (name : String) (names : List String)
    (siblings : List (String × Element)) :
    childrenAt (name :: names) siblings = childrenAt names (childrenOf siblings name) := rfl

/-- A call adds to the names of a level the segment with which its path goes on from there. -/
theorem keys_childrenAt_alterAt {change : Element → Element} (keeps : KeepsPlace change)
    (parent : Option String) (path names : List String) (siblings : List (String × Element)) :
    Entries.keys (childrenAt names (alterAt change parent path siblings)) =
      addName (Entries.keys (childrenAt names siblings)) (nextSegment? names path) := by
  induction path generalizing parent names siblings with
  | nil =>
    cases names with
    | nil => rfl
    | cons => rfl
  | cons segment path inductionHypothesis =>
    cases names with
    | nil =>
      rw [alterAt_cons]
      exact Entries.keys_alter _ _ _
    | cons name names =>
      rw [childrenAt_cons, childrenAt_cons, nextSegment?]
      by_cases same : segment = name
      · subst same
        obtain ⟨above, below⟩ := childrenOf_alterAt_self keeps parent segment path siblings
        rw [below, inductionHypothesis, if_pos rfl]
      · rw [childrenOf_alterAt_of_ne _ _ (Ne.symm same), if_neg same, addName]

/-- The declaration of the element that the names lead to. -/
def declarationAt (names : List String) (siblings : List (String × Element)) :
    Option Declaration :=
  (findAt? names siblings).bind declaration

theorem declarationAt_cons {names : List String} (nonempty : names ≠ []) (name : String)
    (siblings : List (String × Element)) :
    declarationAt (name :: names) siblings = declarationAt names (childrenOf siblings name) := by
  rw [declarationAt, findAt?_cons nonempty, declarationAt]

/-- A call updates the declaration at its own path and no other one. -/
theorem declarationAt_alterAt {change : Element → Element} (keeps : KeepsPlace change)
    (update : Option Declaration → Option Declaration)
    (updates : ∀ element, (change element).declaration = update element.declaration)
    (parent : Option String) (path : List String) {names : List String} (nonempty : names ≠ [])
    (siblings : List (String × Element)) :
    declarationAt names (alterAt change parent path siblings) =
      if names = path then update (declarationAt names siblings)
      else declarationAt names siblings := by
  induction path generalizing parent names siblings with
  | nil => rw [alterAt, if_neg nonempty]
  | cons segment path inductionHypothesis =>
    obtain ⟨name, names, rfl⟩ := List.exists_cons_of_ne_nil nonempty
    by_cases same : name = segment
    · subst same
      by_cases last : names = []
      · subst last
        have top (siblings : List (String × Element)) :
            declarationAt [name] siblings = declarationOf siblings name := rfl
        rw [top, top, declarationOf_alterAt_self updates]
        simp only [List.cons.injEq, true_and, eq_comm]
      · obtain ⟨above, below⟩ := childrenOf_alterAt_self keeps parent name path siblings
        rw [declarationAt_cons last, declarationAt_cons last, below,
          inductionHypothesis above last]
        simp only [List.cons.injEq, true_and]
    · rw [if_neg fun equal => same (List.cons.inj equal).1]
      by_cases last : names = []
      · subst last
        exact declarationOf_alterAt_of_ne change parent same path siblings
      · rw [declarationAt_cons last, declarationAt_cons last,
          childrenOf_alterAt_of_ne change parent same]

end Element

/-! ### Runs of calls -/

/-- A call that grows a tree: it declares the element at a path or only makes sure of it. -/
inductive TreeCall where
  | merge (path : String) (declaration : Declaration)
  | ensure (path : String)

namespace TreeCall

/-- The path that a call is about. -/
def path : TreeCall → String
  | .merge path _ => path
  | .ensure path => path

/-- The tree after a call. -/
def apply (tree : DocTree) : TreeCall → DocTree
  | .merge path declaration => tree.merge path declaration
  | .ensure path => tree.ensure path

/-- What a call declares at a path. -/
def declares? (path : String) : TreeCall → Option Declaration
  | .merge own declaration => if own = path then some declaration else none
  | .ensure _ => none

/-- A call changes the element at its path, which stays in its place. -/
theorem apply_roots (tree : DocTree) (call : TreeCall) :
    ∃ change, Element.KeepsPlace change ∧
      (apply tree call).roots =
        Element.alterAt change none (Text.segments call.path) tree.roots := by
  cases call with
  | merge path declaration => exact ⟨_, Element.keepsPlace_declare declaration, rfl⟩
  | ensure path => exact ⟨_, Element.keepsPlace_id, rfl⟩

theorem keys_childrenAt_apply (tree : DocTree) (call : TreeCall) (names : List String) :
    Entries.keys (Element.childrenAt names (apply tree call).roots) =
      addName (Entries.keys (Element.childrenAt names tree.roots))
        (nextSegment? names (Text.segments call.path)) := by
  obtain ⟨change, keeps, roots⟩ := apply_roots tree call
  rw [roots, Element.keys_childrenAt_alterAt keeps]

theorem declarationAt_apply (tree : DocTree) (call : TreeCall) (path : String) :
    Element.declarationAt (Text.segments path) (apply tree call).roots =
      (call.declares? path).or (Element.declarationAt (Text.segments path) tree.roots) := by
  have nonempty := Text.segments_ne_nil path
  cases call with
  | merge own declaration =>
    have step := Element.declarationAt_alterAt (Element.keepsPlace_declare declaration)
      (fun _ => some declaration) (fun _ => rfl) none (Text.segments own) nonempty tree.roots
    rw [apply, DocTree.merge, step, declares?]
    by_cases same : own = path
    · rw [if_pos (congrArg _ same.symm), if_pos same, Option.some_or]
    · rw [if_neg fun equal => same (Text.segments_injective equal).symm, if_neg same,
        Option.none_or]
  | ensure own =>
    have step := Element.declarationAt_alterAt Element.keepsPlace_id id (fun _ => rfl) none
      (Text.segments own) nonempty tree.roots
    rw [apply, DocTree.ensure, step, declares?, Option.none_or, id_eq, ite_self]

end TreeCall

/-- The tree that calls make, one after the other, from the tree without elements. -/
def DocTree.afterCalls (calls : List TreeCall) : DocTree :=
  calls.foldl TreeCall.apply .empty

theorem DocTree.afterCalls_concat (calls : List TreeCall) (call : TreeCall) :
    DocTree.afterCalls (calls ++ [call]) = TreeCall.apply (DocTree.afterCalls calls) call := by
  rw [DocTree.afterCalls, List.foldl_append]
  rfl

theorem filterMap_concat {Item Value : Type} (value : Item → Option Value) (items : List Item)
    (item : Item) :
    (items ++ [item]).filterMap value = items.filterMap value ++ (value item).toList := by
  rw [List.filterMap_append]
  refine congrArg (items.filterMap value ++ ·) ?_
  cases found : value item with
  | none => rw [List.filterMap_cons_none found, List.filterMap_nil, Option.toList_none]
  | some => rw [List.filterMap_cons_some found, List.filterMap_nil, Option.toList_some]

theorem eraseDups_append_toList (names : List String) (added : Option String) :
    (names ++ added.toList).eraseDups = addName names.eraseDups added := by
  cases added with
  | none => rw [Option.toList_none, List.append_nil, addName]
  | some name => rw [Option.toList_some, Entries.eraseDups_concat, addName]

namespace DocTree

/-- The names of every level stand in the order in which the paths first went on with them. -/
theorem keys_childrenAt_afterCalls (calls : List TreeCall) (names : List String) :
    Entries.keys (Element.childrenAt names (afterCalls calls).roots) =
      (calls.filterMap fun call => nextSegment? names (Text.segments call.path)).eraseDups := by
  induction calls using List.reverseRecOn with
  | nil =>
    have noLevel : ∀ names, Element.childrenAt names empty.roots = [] := by
      intro names
      induction names with
      | nil => rfl
      | cons name names inductionHypothesis => exact inductionHypothesis
    rw [show afterCalls [] = empty from rfl, noLevel]
    rfl
  | append_singleton calls call inductionHypothesis =>
    rw [afterCalls_concat, TreeCall.keys_childrenAt_apply, inductionHypothesis,
      filterMap_concat, eraseDups_append_toList]

/-- The declaration at a path is the last one that a call made there. -/
theorem declarationAt_afterCalls (calls : List TreeCall) (path : String) :
    Element.declarationAt (Text.segments path) (afterCalls calls).roots =
      (calls.filterMap (TreeCall.declares? path)).getLast? := by
  induction calls using List.reverseRecOn with
  | nil =>
    obtain ⟨name, names, segments⟩ := List.exists_cons_of_ne_nil (Text.segments_ne_nil path)
    rw [segments]
    cases names with
    | nil => rfl
    | cons => rfl
  | append_singleton calls call inductionHypothesis =>
    rw [afterCalls_concat, TreeCall.declarationAt_apply, inductionHypothesis,
      filterMap_concat, List.getLast?_append]
    cases call.declares? path with
    | none => rfl
    | some => rfl

/-- There is an element under every beginning of a path and under nothing else. -/
theorem isSome_findAt?_afterCalls (calls : List TreeCall) {names : List String}
    (nonempty : names ≠ []) :
    (Element.findAt? names (afterCalls calls).roots).isSome ↔
      ∃ call ∈ calls, names <+: Text.segments call.path := by
  obtain ⟨above, name, rfl⟩ := (List.eq_nil_or_concat names).resolve_left nonempty
  rw [List.concat_eq_append, Element.findAt?_concat, Entries.get?_isSome_iff,
    keys_childrenAt_afterCalls, List.mem_eraseDups, List.mem_filterMap]
  simp only [nextSegment?_eq_some_iff]

theorem mergeAll_empty_eq (merges : List (String × Declaration)) :
    empty.mergeAll merges = afterCalls (merges.map fun entry => .merge entry.1 entry.2) := by
  rw [mergeAll, afterCalls, List.foldl_map]
  rfl

/-- The declarations merged at a path, in order. -/
def mergedAt (merges : List (String × Declaration)) (path : String) : List Declaration :=
  merges.filterMap fun entry => if entry.1 = path then some entry.2 else none

/-- The segments with which merged paths go on after these names, in order. -/
def nextMerged (merges : List (String × Declaration)) (names : List String) : List String :=
  merges.filterMap fun entry => nextSegment? names (Text.segments entry.1)

theorem keys_childrenAt_mergeAll (merges : List (String × Declaration)) (names : List String) :
    Entries.keys (Element.childrenAt names (empty.mergeAll merges).roots) =
      (nextMerged merges names).eraseDups := by
  rw [mergeAll_empty_eq, keys_childrenAt_afterCalls, List.filterMap_map]
  rfl

theorem declaration_mergeAll (merges : List (String × Declaration)) {path : String}
    {element : Element} (found : (empty.mergeAll merges).get? path = some element) :
    element.declaration = (mergedAt merges path).getLast? := by
  have declared := declarationAt_afterCalls
    (merges.map fun entry => .merge entry.1 entry.2) path
  rw [← mergeAll_empty_eq, Element.declarationAt, List.filterMap_map] at declared
  rw [get?] at found
  rw [found] at declared
  exact declared

theorem mergedAt_ne_nil_iff {merges : List (String × Declaration)} {path : String} :
    mergedAt merges path ≠ [] ↔ ∃ entry ∈ merges, entry.1 = path := by
  simp [mergedAt, List.filterMap_eq_nil_iff]

/-- After merging declarations at any paths, there is an element at a path if and only if the
path is the beginning of a merged one. It has the last declaration that was merged at exactly
its path, and none, with all that belongs to one empty, if there was no merge at it. The names
of its children, and those at the top, are the segments with which merged paths went on from
there, each once and in the order of their first use. -/
theorem mergeAll_remembers (merges : List (String × Declaration)) (path : String) :
    (((empty.mergeAll merges).get? path).isSome ↔
      ∃ entry ∈ merges, Text.segments path <+: Text.segments entry.1) ∧
    (∀ element, (empty.mergeAll merges).get? path = some element →
      (element.isDeclared ↔ ∃ entry ∈ merges, entry.1 = path) ∧
      element.declaration = (mergedAt merges path).getLast? ∧
      (¬ element.isDeclared →
        element.declaration = none ∧ element.tagType? = none ∧ element.attributes = .empty) ∧
      Entries.keys element.children =
        (nextMerged merges (Text.segments path)).eraseDups) ∧
    Entries.keys (empty.mergeAll merges).roots = (nextMerged merges []).eraseDups := by
  refine ⟨?_, fun element found => ⟨?_, declaration_mergeAll merges found, ?_, ?_⟩,
    keys_childrenAt_mergeAll merges []⟩
  · rw [mergeAll_empty_eq, get?, isSome_findAt?_afterCalls _ (Text.segments_ne_nil path)]
    simp only [List.mem_map, exists_exists_and_eq_and, TreeCall.path]
  · rw [Element.isDeclared, declaration_mergeAll merges found, List.getLast?_isSome,
      ← mergedAt_ne_nil_iff]
  · intro undeclared
    rw [Element.isDeclared, Option.not_isSome_iff_eq_none] at undeclared
    refine ⟨undeclared, ?_, ?_⟩
    · rw [Element.tagType?, undeclared, Option.map_none]
    · rw [Element.attributes, undeclared]
  · rw [← Element.childrenAt_of_findAt? found, keys_childrenAt_mergeAll]

end DocTree

end DocComments
