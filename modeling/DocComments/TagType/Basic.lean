/-
This file gives tag types and the errors of a table of them.

An element tag names a tag type. A type may leave any of its seven properties open and then
takes the value of its parent type, so what a type resolves a property to is the value of the
nearest type up its chain of parents that defines it. Besides its name a type may be called by
aliases.
-/

import DocComments.Attribute.Basic

namespace DocComments

/-- The properties that tag types inherit, in the order in which they are checked. -/
inductive TagProperty where
  | separate
  | list
  | callable
  | sourceVisible
  | listOrder
  | title
  | displayName
deriving DecidableEq, Repr

namespace TagProperty

/-- Every property. -/
def all : List TagProperty :=
  [.separate, .list, .callable, .sourceVisible, .listOrder, .title, .displayName]

/-- The name as settings files write it. -/
def name : TagProperty → String
  | .separate => "separate"
  | .list => "list"
  | .callable => "callable"
  | .sourceVisible => "source_visible"
  | .listOrder => "list_order"
  | .title => "title"
  | .displayName => "display_name"

/-- The property of a name. -/
def ofName? (name : String) : Option TagProperty :=
  all.find? fun property => property.name == name

end TagProperty

/-- The value of a property. -/
inductive PropertyValue where
  | flag (value : Bool)
  | order (value : Int)
  | text (value : String)
deriving DecidableEq, Repr

/-- What a tag type defines itself: its parent, its aliases, the properties it does not leave
open, and default attributes. -/
structure TagType where
  parentType : Option String
  aliases : List String
  separate : Option Bool
  list : Option Bool
  callable : Option Bool
  sourceVisible : Option Bool
  listOrder : Option Int
  title : Option String
  displayName : Option String
  attributes : Attributes
deriving DecidableEq, Repr

namespace TagType

/-- A type that defines nothing. -/
def bare : TagType :=
  ⟨none, [], none, none, none, none, none, none, none, .empty⟩

/-- Adds an alias unless the type has it already. -/
def addAlias (aliases : List String) (name : String) : List String :=
  if aliases.contains name then aliases else aliases ++ [name]

/-- The type's own value of a property. -/
def local? (definition : TagType) : TagProperty → Option PropertyValue
  | .separate => definition.separate.map .flag
  | .list => definition.list.map .flag
  | .callable => definition.callable.map .flag
  | .sourceVisible => definition.sourceVisible.map .flag
  | .listOrder => definition.listOrder.map .order
  | .title => definition.title.map .text
  | .displayName => definition.displayName.map .text

end TagType

/-- What can be wrong with a table of tag types, or with a look-up in it. -/
inductive SettingsError where
  | missingProperty (typeName : String) (property : TagProperty)
  | unknownParent (typeName parentType : String)
  | duplicateAlias (name typeName existing : String)
  | cyclicParent (typeName : String)
  | unknownType (typeName : String)
deriving DecidableEq, Repr

namespace SettingsError

/-- The message of an error. -/
def message : SettingsError → String
  | .missingProperty typeName property =>
    s!"tag type `{typeName}` does not define `{property.name}` and no parent type does either"
  | .unknownParent typeName parentType =>
    s!"tag type `{typeName}` has unknown parent type `{parentType}`"
  | .duplicateAlias name typeName existing =>
    s!"alias `{name}` of tag type `{typeName}` is already used by `{existing}`"
  | .cyclicParent typeName => s!"parent type chain of `{typeName}` is cyclic"
  | .unknownType typeName => s!"unknown tag type `{typeName}`"

end SettingsError

end DocComments
