/-
This file builds the tables of a TOML document.

A document lists headers and dotted keys, and the same table may be named many times on the
way. What may be named again depends on how a table came about: a table that only a longer
header runs through can still get a header of its own, a table made by dotted keys can only be
extended by dotted keys, and an inline table is closed. The document is kept as it grows, with
the origin of every table, and becomes plain data at the end, its fields sorted by name.
-/

import DocComments.Datum.Basic
import DocComments.Text.Pieces

namespace DocComments.Toml

/-- How a table came about. -/
inductive Origin where
  /-- A header names it. -/
  | header
  /-- A longer header runs through it. -/
  | throughHeader
  /-- A dotted key runs through it. -/
  | dottedKey
  /-- It is written in braces. -/
  | inline
deriving DecidableEq

/-- A value of a document under construction. -/
inductive Item where
  | plain (datum : Datum)
  | array (items : List Item)
  | tables (earlier : List Item) (last : Item)
  | table (origin : Origin) (fields : List (String × Item))

/-- A table under construction: its origin and its fields in the order they came. -/
structure Table where
  origin : Origin
  fields : List (String × Item)

namespace Table

/-- The table before the first line of a document. -/
def root : Table :=
  ⟨.header, []⟩

/-- The table as a value. -/
def item (table : Table) : Item :=
  .table table.origin table.fields

end Table

/-- Replaces the value of a field, or adds the field at the end. -/
def setField (fields : List (String × Item)) (name : String) (item : Item) :
    List (String × Item) :=
  match fields with
  | [] => [(name, item)]
  | (other, value) :: fields =>
    if other == name then (name, item) :: fields
    else (other, value) :: setField fields name item

/-- Changes the table that a value gives access to: the table itself, or the last of several.
An inline table is closed, and so is a table with a header when a dotted key reaches it. -/
def changeWithin? (dotted : Bool) (change : Table → Option Table) : Item → Option Item
  | .table origin fields =>
    if origin == .inline || (dotted && origin == .header) then
      none
    else
      (change ⟨origin, fields⟩).map Table.item
  | .tables earlier (.table origin fields) =>
    (change ⟨origin, fields⟩).map fun last => .tables earlier last.item
  | _ => none

/-- Follows a path of names, making the tables that are missing, and changes the table at its
end. -/
def change? (dotted : Bool) (change : Table → Option Table) :
    List String → Table → Option Table
  | [], table => change table
  | name :: path, table =>
    let made := match table.fields.lookup name with
      | some item => item
      | none => .table (if dotted then .dottedKey else .throughHeader) []
    (changeWithin? dotted (change? dotted change path) made).map fun item =>
      { table with fields := setField table.fields name item }

/-- Cuts a non-empty path into what leads to its last name and that name. -/
def splitLast? : List String → Option (List String × String)
  | [] => none
  | [name] => some ([], name)
  | name :: path => (splitLast? path).map fun (parents, last) => (name :: parents, last)

/-- Adds a field by a dotted key. A key with several parts may add only to a table that dotted
keys made, and no field is given twice. -/
def addField? (path : List String) (item : Item) (table : Table) : Option Table := do
  let (parents, name) ← splitLast? path
  let add (table : Table) : Option Table :=
    if (table.origin == .dottedKey) == parents.isEmpty || (table.fields.lookup name).isSome then
      none
    else
      some { table with fields := setField table.fields name item }
  change? true add parents table

/-- Opens the table of a header. -/
def openTable? (path : List String) (table : Table) : Option Table := do
  let (parents, name) ← splitLast? path
  let add (table : Table) : Option Table :=
    match table.fields.lookup name with
    | none => some { table with fields := setField table.fields name (.table .header []) }
    | some (.table .throughHeader fields) =>
      some { table with fields := setField table.fields name (.table .header fields) }
    | some _ => none
  change? false add parents table

/-- Opens another table of the array that a doubled header names. -/
def openElement? (path : List String) (table : Table) : Option Table := do
  let (parents, name) ← splitLast? path
  let add (table : Table) : Option Table :=
    match table.fields.lookup name with
    | none =>
      some { table with fields := setField table.fields name (.tables [] (.table .header [])) }
    | some (.tables earlier last) =>
      let item := Item.tables (earlier ++ [last]) (.table .header [])
      some { table with fields := setField table.fields name item }
    | some _ => none
  change? false add parents table

/-! ### The finished document -/

/-- Puts a field in its place among sorted fields. -/
def insertSorted (field : String × Datum) : List (String × Datum) → List (String × Datum)
  | [] => [field]
  | other :: fields =>
    if Text.notAfter field.1.toList other.1.toList then field :: other :: fields
    else other :: insertSorted field fields

mutual

/-- The value as plain data, with the fields of every table sorted by name. -/
def Item.datum : Item → Datum
  | .plain datum => datum
  | .array items => .array (datums items)
  | .tables earlier last => .array (datums earlier ++ [last.datum])
  | .table _ fields => .table (sortedFields fields)

def datums : List Item → List Datum
  | [] => []
  | item :: items => item.datum :: datums items

def sortedFields : List (String × Item) → List (String × Datum)
  | [] => []
  | (name, item) :: fields => insertSorted (name, item.datum) (sortedFields fields)

end

end DocComments.Toml
