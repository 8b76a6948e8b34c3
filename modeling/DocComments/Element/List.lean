/-
This file gathers the declared elements of a tree into lists.

There is one list for each tag type that is to be listed and has an element. The elements of a
list stand in the order of the tree; the lists are ordered by the place that their types claim,
and among equal places by the names of the types.
-/

import DocComments.Element.Tree

namespace DocComments

/-- The declared elements of one tag type, by path. -/
structure ElementList where
  tagType : String
  title : String
  listOrder : Int
  elements : List String
deriving DecidableEq, Repr

namespace ElementList

/-- Whether a list may stand before another one. -/
def notAfter (first second : ElementList) : Bool :=
  if first.listOrder == second.listOrder then
    Text.notAfter first.tagType.toList second.tagType.toList
  else
    decide (first.listOrder ≤ second.listOrder)

/-- The list as data. -/
def toDatum (list : ElementList) : Datum :=
  .table [("tag_type", .text list.tagType), ("title", .text list.title),
    ("list_order", .integer list.listOrder), ("elements", .ofTexts list.elements)]

/-- Adds an element to the list of its type, which is made with the first element. Placeholders
and elements of types that are not listed change nothing. -/
def addElement (table : TagTable) (lists : Entries String ElementList) (element : Element) :
    Except SettingsError (Entries String ElementList) := do
  match element.tagType? with
  | none => return lists
  | some tagType =>
    if ← table.isListed tagType then
      match Entries.get? lists tagType with
      | some list =>
        return Entries.set lists tagType { list with elements := list.elements ++ [element.path] }
      | none =>
        let title ← table.title tagType
        let listOrder ← table.listOrder tagType
        return Entries.set lists tagType ⟨tagType, title, listOrder, [element.path]⟩
    else
      return lists

end ElementList

/-- The lists of a tree. They exist when every declared element has a type of the table. -/
def DocTree.lists (tree : DocTree) (table : TagTable) :
    Except SettingsError (List ElementList) := do
  let lists ← tree.elements.foldlM (ElementList.addElement table) []
  return (lists.map (·.2)).mergeSort ElementList.notAfter

end DocComments
