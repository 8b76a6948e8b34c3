/-
This file reads tables of tag types from the data of settings files, and holds the table that
is in use when no file is named.

A file is a table with one field per tag type. A type named twice keeps its first place and
takes its last definition. Within a definition unknown fields are refused, and so is a field
that is given twice, where aliases and the display name each go by two names.
-/

import DocComments.Attribute.Data
import DocComments.Datum.JsonReader
import DocComments.Datum.TomlReader
import DocComments.TagType.Table

namespace DocComments

/-- The fields that a definition may have. -/
def TagType.fieldNames : List String :=
  ["parent_type", "alias", "aliases", "separate", "list", "callable", "source_visible",
   "list_order", "title", "display_name", "name", "attributes"]

/-- The fields of a definition in their order. Up to the display name none may be left out where
they stand without their names. -/
def TagType.fieldOrder : List String :=
  ["parent_type", "alias", "separate", "list", "callable", "source_visible", "list_order",
   "title", "display_name", "attributes"]

/-- Reads the definition of a tag type. -/
def TagType.ofDatum? (datum : Datum) : Option TagType := do
  let fields ← datum.toRecord? TagType.fieldOrder 9
  guard (onlyFields fields TagType.fieldNames)
  let parentType ← readField? fields ["parent_type"] none (Datum.orNull? Datum.toText?)
  let aliases ← readField? fields ["alias", "aliases"] [] (Datum.toList? Datum.toText?)
  let separate ← readField? fields ["separate"] none (Datum.orNull? Datum.toBool?)
  let list ← readField? fields ["list"] none (Datum.orNull? Datum.toBool?)
  let callable ← readField? fields ["callable"] none (Datum.orNull? Datum.toBool?)
  let sourceVisible ← readField? fields ["source_visible"] none (Datum.orNull? Datum.toBool?)
  let listOrder ← readField? fields ["list_order"] none (Datum.orNull? Datum.toInteger?)
  let title ← readField? fields ["title"] none (Datum.orNull? Datum.toText?)
  let displayName ←
    readField? fields ["display_name", "name"] none (Datum.orNull? Datum.toText?)
  let attributes ← readField? fields ["attributes"] .empty Attributes.ofDatum?
  return ⟨parentType, aliases.foldl TagType.addAlias [], separate, list, callable,
    sourceVisible, listOrder, title, displayName, attributes⟩

namespace TagTable

/-- Reads the definitions of a table. -/
def typesOfDatum? (datum : Datum) : Option (Entries String TagType) := do
  let fields ← datum.toFields?
  let types ← fields.mapM fun field =>
    (TagType.ofDatum? field.2).map fun definition => (field.1, definition)
  return Entries.ofList types

/-- Reads the definitions of a table from JSON. -/
def typesOfJson? (text : List Char) : Option (Entries String TagType) :=
  (Json.read? text).bind typesOfDatum?

/-- Reads the definitions of a table from TOML. -/
def typesOfToml? (text : List Char) : Option (Entries String TagType) :=
  (Toml.read? text).bind typesOfDatum?

end TagTable

end DocComments
