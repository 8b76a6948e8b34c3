/-
This file builds tables of tag types and looks properties up in them.

A table is checked once, when it is built: aliases first, then the chains of parents, then the
properties, each over the whole table. In a table that passed, every chain of parents ends, all
of its types are in the table, and every property is defined somewhere on it, so later look-ups
fail only for types that the table does not have.
-/

import DocComments.TagType.Basic

namespace DocComments

/-- A table of tag types, with the type that each alias stands for. -/
structure TagTable where
  types : Entries String TagType
  aliases : Entries String String
deriving DecidableEq, Repr

namespace TagTable

/-! ### Look-ups -/

/-- The definition of a type. -/
def get? (table : TagTable) (typeName : String) : Option TagType :=
  Entries.get? table.types typeName

/-- The definition of a type that has to be there. -/
def require (table : TagTable) (typeName : String) : Except SettingsError TagType :=
  match table.get? typeName with
  | some definition => .ok definition
  | none => .error (.unknownType typeName)

/-- A definition and those of its ancestors, nearest first, at most `bound` of them. -/
def ancestry (table : TagTable) : Nat → TagType → List TagType
  | 0, _ => []
  | bound + 1, definition =>
    definition ::
      match definition.parentType.bind table.get? with
      | some parent => ancestry table bound parent
      | none => []

/-- The definitions of a type and of its ancestors, nearest first. No chain without a cycle is
longer than the table. -/
def chain (table : TagTable) (typeName : String) : Except SettingsError (List TagType) :=
  (table.require typeName).map fun definition => table.ancestry table.types.length definition

/-- The value of a property: that of the nearest type which defines it. -/
def resolve (table : TagTable) (typeName : String) (property : TagProperty) :
    Except SettingsError PropertyValue := do
  let chain ← table.chain typeName
  match chain.findSome? fun definition => definition.local? property with
  | some value => .ok value
  | none => .error (.missingProperty typeName property)

/-- The flag that a property resolves to. -/
def resolveFlag (table : TagTable) (typeName : String) (property : TagProperty) :
    Except SettingsError Bool :=
  (table.resolve typeName property).map fun
    | .flag value => value
    | _ => false

/-- The text that a property resolves to. -/
def resolveText (table : TagTable) (typeName : String) (property : TagProperty) :
    Except SettingsError String :=
  (table.resolve typeName property).map fun
    | .text value => value
    | _ => ""

/-- Whether elements of the type are gathered in a list. -/
def isListed (table : TagTable) (typeName : String) : Except SettingsError Bool :=
  table.resolveFlag typeName .list

/-- The title of the type's list. -/
def title (table : TagTable) (typeName : String) : Except SettingsError String :=
  table.resolveText typeName .title

/-- The place of the type's list among the lists. -/
def listOrder (table : TagTable) (typeName : String) : Except SettingsError Int :=
  (table.resolve typeName .listOrder).map fun
    | .order value => value
    | _ => 0

/-- The default of an attribute: that of the nearest type which declares it, if one does. -/
def attributeDefault (table : TagTable) (typeName : String) (key : AttributeKey) :
    Except SettingsError (Option AttributeValue) :=
  (table.chain typeName).map fun chain =>
    chain.findSome? fun definition => definition.attributes.get? key

/-- The type that a name stands for, as its name or as an alias. -/
def canonicalName? (table : TagTable) (name : String) : Option String :=
  match table.get? name with
  | some _ => some name
  | none => Entries.get? table.aliases name

/-! ### Building -/

/-- Adds an alias of a type, which neither an earlier alias nor a type may be called. -/
def addAlias (types : Entries String TagType) (typeName : String)
    (aliases : Entries String String) (name : String) :
    Except SettingsError (Entries String String) :=
  match Entries.get? aliases name with
  | some existing => .error (.duplicateAlias name typeName existing)
  | none =>
    match Entries.get? types name with
    | some _ => .error (.duplicateAlias name typeName name)
    | none => .ok (aliases ++ [(name, typeName)])

/-- The type that each alias stands for. -/
def indexAliases (types : Entries String TagType) :
    Except SettingsError (Entries String String) :=
  types.foldlM (fun aliases entry =>
    entry.2.aliases.foldlM (addAlias types entry.1) aliases) []

/-- Walks up from a type with `steps` steps left and fails when a parent is missing or the
steps run out. -/
def walkUp (table : TagTable) (start : String) :
    Nat → String → TagType → Except SettingsError Unit
  | steps, current, definition =>
    match definition.parentType with
    | none => .ok ()
    | some parentType =>
      match table.get? parentType with
      | none => .error (.unknownParent current parentType)
      | some parent =>
        match steps with
        | 0 => .error (.cyclicParent start)
        | steps + 1 => walkUp table start steps parentType parent

/-- Checks that the parents of every type are in the table and come to an end. -/
def checkChains (table : TagTable) : Except SettingsError Unit :=
  table.types.forM fun entry => table.walkUp entry.1 table.types.length entry.1 entry.2

/-- Checks that every property of every type is defined on its chain. -/
def checkProperties (table : TagTable) : Except SettingsError Unit :=
  table.types.forM fun entry =>
    TagProperty.all.forM fun property => (table.resolve entry.1 property).map fun _ => ()

/-- Builds a table and checks it. -/
def build (types : Entries String TagType) : Except SettingsError TagTable := do
  let aliases ← indexAliases types
  let table : TagTable := ⟨types, aliases⟩
  table.checkChains
  table.checkProperties
  return table

end TagTable

end DocComments
