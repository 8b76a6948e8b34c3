/-
This file holds the table of tag types that is in use when no settings file is named.

All types descend from `default`, which defines every property, and the types of values descend
from `attribute`. The types stand in the order of their names.
-/

import DocComments.TagType.Table

namespace DocComments

namespace TagType

/-- A child of the root type with its display name and its title. -/
def child (displayName title : String) : TagType :=
  { bare with
    parentType := some "default", displayName := some displayName, title := some title }

/-- A type of values: an attribute whose value has the type of the same name. -/
def valueType (name : String) (aliases : List String) : TagType :=
  { bare with
    parentType := some "attribute"
    aliases := aliases
    displayName := some name
    attributes := ⟨[(.valtype, .type ⟨name, none⟩)]⟩ }

/-- Default attributes that hold a return value of which nothing is known. -/
def plainReturn : Attributes :=
  ⟨[(.returns, .returns ⟨none, none⟩)]⟩

end TagType

open TagType in
/-- The tag types by name. -/
def builtinTypes : Entries String TagType :=
  [("article",
      { child "" "manual" with
        aliases := ["a"], separate := some true, sourceVisible := some false,
        list := some true, listOrder := some (-1) }),
   ("attribute",
      { child "attribute" "attributes" with aliases := ["attr"], callable := some false }),
   ("bytestring", valueType "bytestring" ["str"]),
   ("class",
      { child "class" "classes" with
        list := some true
        attributes := ⟨[(.returns, .returns ⟨some ⟨"instance", none⟩, none⟩)]⟩ }),
   ("default",
      { bare with
        separate := some false, list := some false, callable := some false,
        sourceVisible := some true, listOrder := some 0,
        title := some "default plural name", displayName := some "default name",
        attributes := ⟨[(.access, .text "public"), (.params, .params [])]⟩ }),
   ("dict", valueType "dict" []),
   ("function",
      { child "function" "functions" with callable := some true, attributes := plainReturn }),
   ("instance",
      { child "instance" "instances" with
        separate := some false
        attributes := ⟨[(.valtype, .type ⟨"instance", none⟩)]⟩ }),
   ("list", valueType "list" []),
   ("method",
      { child "method" "methods" with
        callable := some true, separate := some false, attributes := plainReturn }),
   ("module",
      { child "module" "modules" with separate := some true, list := some true }),
   ("number", valueType "number" ["num"]),
   ("package",
      { child "package" "packages" with
        aliases := ["pack"], separate := some true, list := some true }),
   ("paragraph",
      { child "" "paragraphs" with
        aliases := ["p"], separate := some false, sourceVisible := some false,
        list := some false }),
   ("tuple", valueType "tuple" []),
   ("unicode", valueType "unicode" ["u"])]

/-- The types that the aliases stand for. -/
def builtinAliases : Entries String String :=
  [("a", "article"), ("attr", "attribute"), ("str", "bytestring"), ("num", "number"),
   ("pack", "package"), ("p", "paragraph"), ("u", "unicode")]

/-- The table in use when no settings file is named. -/
def TagTable.builtin : TagTable :=
  ⟨builtinTypes, builtinAliases⟩

/-- Building a table from the types finds no fault and gives that table. -/
theorem TagTable.build_builtinTypes : TagTable.build builtinTypes = .ok TagTable.builtin := by
  rfl

end DocComments
