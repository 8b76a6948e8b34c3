/-
This file writes attributes as data and reads them from the data of settings files.

Writing shows every part of a value, with null for what is missing. Reading is more generous:
a type may be a bare text, parts that have a natural default may be left out, and unknown parts
of a value are passed over. An array will do for a table if the parts stand in their order. The
shape of a value is decided by its key. An unknown key is refused, and a key given twice takes the
later value in the earlier place.
-/

import DocComments.Attribute.Basic
import DocComments.Datum.Basic

namespace DocComments

/-! ### Writing -/

def TypeRef.toDatum (value : TypeRef) : Datum :=
  .table [("type", .text value.typeName), ("ref", .ofOption value.reference)]

/-- A type, or null. -/
def optionalTypeDatum : Option TypeRef → Datum
  | some value => value.toDatum
  | none => .null

def Param.toDatum (param : Param) : Datum :=
  .table [("name", .text param.name), ("default", .ofOption param.default),
    ("sequenced", .boolean param.sequenced), ("type", optionalTypeDatum param.type),
    ("description", .text param.description)]

def ReturnValue.toDatum (value : ReturnValue) : Datum :=
  .table [("type", optionalTypeDatum value.type), ("description", .ofOption value.description)]

def Example.toDatum (sample : Example) : Datum :=
  .table [("title", .text sample.title), ("langid", .ofOption sample.language),
    ("code", .text sample.code), ("description", .text sample.description)]

def AttributeValue.toDatum : AttributeValue → Datum
  | .null => .null
  | .text value => .text value
  | .type value => value.toDatum
  | .returns value => value.toDatum
  | .params values => .array (values.map Param.toDatum)
  | .examples values => .array (values.map Example.toDatum)

/-- The attributes as a table, in their own order. -/
def Attributes.toDatum (attributes : Attributes) : Datum :=
  .table (attributes.entries.map fun entry => (entry.1.name, entry.2.toDatum))

/-! ### Reading -/

/-- A type: a bare text, or a table with a type and perhaps a reference. -/
def TypeRef.ofDatum? : Datum → Option TypeRef
  | .text typeName => some ⟨typeName, none⟩
  | .table fields => do
    let typeName ← readField? fields ["type"] none (fun datum => datum.toText?.map some)
    let typeName ← typeName
    let reference ← readField? fields ["ref"] none (Datum.orNull? Datum.toText?)
    return ⟨typeName, reference⟩
  | _ => none

/-- A parameter, of which any part may be left out. -/
def Param.ofDatum? (datum : Datum) : Option Param := do
  let fields ← datum.toRecord? ["name", "default", "sequenced", "type", "description"] 0
  let name ← readField? fields ["name"] "" Datum.toText?
  let default ← readField? fields ["default"] none (Datum.orNull? Datum.toText?)
  let sequenced ← readField? fields ["sequenced"] false Datum.toBool?
  let type ← readField? fields ["type"] none (Datum.orNull? TypeRef.ofDatum?)
  let description ← readField? fields ["description"] "" Datum.toText?
  return ⟨name, default, sequenced, type, description⟩

/-- A return value, of which any part may be left out. -/
def ReturnValue.ofDatum? (datum : Datum) : Option ReturnValue := do
  let fields ← datum.toRecord? ["type", "description"] 0
  let type ← readField? fields ["type"] none (Datum.orNull? TypeRef.ofDatum?)
  let description ← readField? fields ["description"] none (Datum.orNull? Datum.toText?)
  return ⟨type, description⟩

/-- An example, of which any part may be left out. -/
def Example.ofDatum? (datum : Datum) : Option Example := do
  let fields ← datum.toRecord? ["title", "langid", "code", "description"] 0
  let title ← readField? fields ["title"] "" Datum.toText?
  let language ← readField? fields ["langid"] none (Datum.orNull? Datum.toText?)
  let code ← readField? fields ["code"] "" Datum.toText?
  let description ← readField? fields ["description"] "" Datum.toText?
  return ⟨title, language, code, description⟩

/-- The value of an attribute, in the shape that its key asks for. A missing list is empty. -/
def AttributeValue.ofDatum? (key : AttributeKey) (datum : Datum) : Option AttributeValue :=
  match key with
  | .params =>
    (Datum.orNull? (Datum.toList? Param.ofDatum?) datum).map fun values =>
      .params (values.getD [])
  | .examples =>
    (Datum.orNull? (Datum.toList? Example.ofDatum?) datum).map fun values =>
      .examples (values.getD [])
  | .valtype => (Datum.orNull? TypeRef.ofDatum? datum).map AttributeValue.ofType?
  | .inherits => (Datum.orNull? TypeRef.ofDatum? datum).map AttributeValue.ofType?
  | .returns => (Datum.orNull? ReturnValue.ofDatum? datum).map AttributeValue.ofReturn?
  | .access => (Datum.orNull? Datum.toText? datum).map AttributeValue.ofText?
  | .author => (Datum.orNull? Datum.toText? datum).map AttributeValue.ofText?
  | .default => (Datum.orNull? Datum.toText? datum).map AttributeValue.ofText?
  | .license => (Datum.orNull? Datum.toText? datum).map AttributeValue.ofText?
  | .version => (Datum.orNull? Datum.toText? datum).map AttributeValue.ofText?

/-- Reads one field of a table of attributes and sets it. -/
def Attributes.readEntry? (attributes : Attributes) (field : String × Datum) :
    Option Attributes := do
  let key ← AttributeKey.ofName? field.1
  let value ← AttributeValue.ofDatum? key field.2
  return attributes.set key value

/-- Reads a table of attributes. -/
def Attributes.ofDatum? (datum : Datum) : Option Attributes := do
  let fields ← datum.toFields?
  fields.foldlM Attributes.readEntry? .empty

end DocComments
