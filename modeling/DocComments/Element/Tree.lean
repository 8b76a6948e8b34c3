/-
This file gives the tree of documented elements.

Every element has a dotted path and stands below the element of the path without its last
segment. Elements that only a longer path runs through are placeholders: they have a name and
children and nothing else. Merging a record at a path makes what is missing on the way and
overwrites what was declared there before; the children stay.

All elements are come to by a walk that keeps a stack of levels. It ends because the elements
still to come, which are those below the levels of the stack, get fewer with every step.
-/

import DocComments.Element.Record
import DocComments.TagType.Table
import DocComments.Text.Pieces

namespace DocComments

/-- An element of the tree. A placeholder has no declaration. -/
structure Element where
  path : String
  name : String
  declaration : Option Declaration
  children : List (String × Element)

namespace Element

/-- An element that nothing declares. -/
def placeholder (path name : String) : Element :=
  ⟨path, name, none, []⟩

/-- Declares the element anew. -/
def declare (declaration : Declaration) (element : Element) : Element :=
  { element with declaration := some declaration }

def isDeclared (element : Element) : Bool :=
  element.declaration.isSome

/-- The type of a declared element. -/
def tagType? (element : Element) : Option String :=
  element.declaration.map (·.tagType)

/-- The attributes of the element; a placeholder has none. -/
def attributes (element : Element) : Attributes :=
  match element.declaration with
  | some declaration => declaration.attributes
  | none => .empty

/-- The child of a name. -/
def child? (element : Element) (name : String) : Option Element :=
  Entries.get? element.children name

/-- The element's own value of an attribute, or else the default of its type. -/
def effectiveAttribute (element : Element) (table : TagTable) (key : AttributeKey) :
    Except SettingsError (Option AttributeValue) :=
  match element.attributes.get? key with
  | some value => .ok (some value)
  | none =>
    match element.tagType? with
    | some tagType => table.attributeDefault tagType key
    | none => .ok none

/-- The path of a child: at the top its name, below an element its name after the element's
path and a dot. -/
def pathBelow (parent : Option String) (name : String) : String :=
  match parent with
  | none => name
  | some path => path ++ "." ++ name

/-- Changes the element that the segments lead to from these siblings on, making placeholders
for what is missing. -/
def alterAt (change : Element → Element) :
    Option String → List String → List (String × Element) → List (String × Element)
  | _, [], siblings => siblings
  | parent, [name], siblings =>
    Entries.alter (fun found =>
      change (found.getD (placeholder (pathBelow parent name) name))) siblings name
  | parent, name :: next :: segments, siblings =>
    Entries.alter (fun found =>
      let element := found.getD (placeholder (pathBelow parent name) name)
      { element with
        children := alterAt change (some element.path) (next :: segments) element.children })
      siblings name

/-- The element that the segments lead to from these siblings on. -/
def findAt? : List String → List (String × Element) → Option Element
  | [], _ => none
  | [name], siblings => Entries.get? siblings name
  | name :: next :: segments, siblings =>
    match Entries.get? siblings name with
    | none => none
    | some element => findAt? (next :: segments) element.children

mutual

/-- The element and everything below it, parents before their children. -/
def preorder : Element → List Element
  | ⟨path, name, declaration, children⟩ =>
    ⟨path, name, declaration, children⟩ :: preorderAll children

/-- The elements of siblings in order, each before what is below it. -/
def preorderAll : List (String × Element) → List Element
  | [] => []
  | (_, element) :: siblings => preorder element ++ preorderAll siblings

end

theorem preorder_eq (element : Element) :
    preorder element = element :: preorderAll element.children := by
  obtain ⟨path, name, declaration, children⟩ := element
  rw [preorder]

/-- The fields of an element except for its children. -/
def ownFields (path name : String) (declaration : Option Declaration) :
    List (String × Datum) :=
  match declaration with
  | some declaration =>
    [("path", .text path), ("name", .text name),
     ("alias_name", .ofOption declaration.aliasName), ("type", .text declaration.tagType),
     ("start_line", .ofNat declaration.startLine), ("end_line", .ofNat declaration.endLine),
     ("source_path", .text declaration.sourcePath),
     ("description", .text declaration.description),
     ("attributes", declaration.attributes.toDatum)]
  | none =>
    [("path", .text path), ("name", .text name), ("alias_name", .null), ("type", .null),
     ("start_line", .null), ("end_line", .null), ("source_path", .null),
     ("description", .null), ("attributes", .table [])]

mutual

/-- The element as data, its children in a table by name. -/
def toDatum : Element → Datum
  | ⟨path, name, declaration, children⟩ =>
    .table (ownFields path name declaration ++ [("children", .table (fieldsOf children))])

/-- Siblings as the fields of a table. -/
def fieldsOf : List (String × Element) → List (String × Datum)
  | [] => []
  | (name, element) :: siblings => (name, toDatum element) :: fieldsOf siblings

end

end Element

/-- A walk over elements: for every level that it entered and did not leave yet the siblings
still to come, the innermost level first. -/
abbrev Walk := List (List (String × Element))

namespace Walk

/-- The elements still to come: first what is left of the innermost level. -/
def remaining (walk : Walk) : List Element :=
  walk.flatMap Element.preorderAll

/-- The next element and the walk after it. Levels at their end are left, and with an element
the level of its children is entered. -/
def next? : Walk → Option (Element × Walk)
  | [] => none
  | [] :: walk => next? walk
  | ((_, element) :: siblings) :: walk => some (element, element.children :: siblings :: walk)

theorem remaining_of_next? {walk later : Walk} {element : Element}
    (next : walk.next? = some (element, later)) :
    walk.remaining = element :: later.remaining := by
  fun_induction next? walk with
  | case1 => cases next
  | case2 walk inductionHypothesis =>
    rw [← inductionHypothesis next]
    rfl
  | case3 name head siblings walk =>
    injection next with pair
    injection pair with headEq laterEq
    subst headEq laterEq
    simp only [remaining, List.flatMap_cons, Element.preorderAll, Element.preorder_eq,
      List.cons_append, List.append_assoc]

/-- The elements that a walk comes to, one after the other. -/
def elements (walk : Walk) : List Element :=
  match _next : walk.next? with
  | none => []
  | some (element, later) => element :: elements later
termination_by walk.remaining.length
decreasing_by
  rw [remaining_of_next? _next, List.length_cons]
  exact Nat.lt_succ_self _

end Walk

/-- The tree of elements, by its topmost elements. -/
structure DocTree where
  roots : List (String × Element)

namespace DocTree

/-- The tree without elements. -/
def empty : DocTree :=
  ⟨[]⟩

/-- The element at a path. -/
def get? (tree : DocTree) (path : String) : Option Element :=
  Element.findAt? (Text.segments path) tree.roots

/-- Makes sure that there is an element at a path. -/
def ensure (tree : DocTree) (path : String) : DocTree :=
  ⟨Element.alterAt id none (Text.segments path) tree.roots⟩

/-- Declares the element at a path. -/
def merge (tree : DocTree) (path : String) (declaration : Declaration) : DocTree :=
  ⟨Element.alterAt (Element.declare declaration) none (Text.segments path) tree.roots⟩

/-- Declares the elements at several paths, one after the other. -/
def mergeAll (tree : DocTree) (declarations : List (String × Declaration)) : DocTree :=
  declarations.foldl (fun tree entry => tree.merge entry.1 entry.2) tree

/-- All elements, parents before their children and siblings in the order they were made. -/
def elements (tree : DocTree) : List Element :=
  Walk.elements [tree.roots]

/-- The number of elements, placeholders included. -/
def size (tree : DocTree) : Nat :=
  tree.elements.length

def isEmpty (tree : DocTree) : Bool :=
  tree.roots.isEmpty

/-- The tree as data: a table of its topmost elements. -/
def toDatum (tree : DocTree) : Datum :=
  .table (Element.fieldsOf tree.roots)

end DocTree

end DocComments
