/-
This file gives the data that settings files hold and that the export writes.

One type serves both directions and both file formats. Fields of a table keep the order they
came in, and a table read from a text may name a field twice; whoever reads the table decides
what that means. Fractions and moments occur in files, but nothing in this program takes one,
so their digits are not kept.
-/

namespace DocComments

/-- A piece of structured data. -/
inductive Datum where
  | null
  | boolean (value : Bool)
  | integer (value : Int)
  | fraction
  | moment
  | text (value : String)
  | array (items : List Datum)
  | table (fields : List (String × Datum))

namespace Datum

/-- A text, or null. -/
def ofOption (value : Option String) : Datum :=
  match value with
  | some value => .text value
  | none => .null

/-- A count. -/
def ofNat (value : Nat) : Datum :=
  .integer (Int.ofNat value)

/-- A list of texts. -/
def ofTexts (values : List String) : Datum :=
  .array (values.map .text)

/-! ### Reading fields -/

def toBool? : Datum → Option Bool
  | .boolean value => some value
  | _ => none

def toText? : Datum → Option String
  | .text value => some value
  | _ => none

/-- An integer of 64 bits with a sign. -/
def toInteger? : Datum → Option Int
  | .integer value =>
    if decide (-9223372036854775808 ≤ value) && decide (value ≤ 9223372036854775807) then
      some value
    else
      none
  | _ => none

/-- Reads a value that may be null. -/
def orNull? {α : Type} (read : Datum → Option α) : Datum → Option (Option α)
  | .null => some none
  | datum => (read datum).map some

/-- Reads every item of an array. -/
def toList? {α : Type} (read : Datum → Option α) : Datum → Option (List α)
  | .array items => items.mapM read
  | _ => none

/-- The fields of a table. -/
def toFields? : Datum → Option (List (String × Datum))
  | .table fields => some fields
  | _ => none

/-- The fields of a record. It is a table, or an array of the fields with these names in their
order, of which only those after the first `required` may be left out. No array has more items
than there are names. -/
def toRecord? (names : List String) (required : Nat) : Datum → Option (List (String × Datum))
  | .table fields => some fields
  | .array items =>
    if Nat.ble required items.length && Nat.ble items.length names.length then
      some (names.zip items)
    else
      none
  | _ => none

end Datum

/-! ### Tables with fixed fields -/

/-- The one field of a table that goes by any of these names. There is an outer `none` when
more than one field does, and an inner `none` when no field does. -/
def fieldNamed? (fields : List (String × Datum)) (names : List String) :
    Option (Option Datum) :=
  match fields.filter fun field => names.contains field.1 with
  | [] => some none
  | [(_, datum)] => some (some datum)
  | _ => none

/-- Reads the field that goes by any of these names; a missing field has the value
`missing`. -/
def readField? {α : Type} (fields : List (String × Datum)) (names : List String) (missing : α)
    (read : Datum → Option α) : Option α :=
  match fieldNamed? fields names with
  | none => none
  | some none => some missing
  | some (some datum) => read datum

/-- Whether every field of the table has one of these names. -/
def onlyFields (fields : List (String × Datum)) (names : List String) : Bool :=
  fields.all fun field => names.contains field.1

end DocComments
