/-
This file writes data as JSON.

There are two layouts. The compact one has no white space at all. The indented one puts every
item and every field on a line of its own, two spaces deeper than the bracket around it, except
that empty arrays and tables stay on one line. Fields are written in their own order. In texts,
only what JSON demands is escaped: quotes, backslashes and the characters below the space.
-/

import DocComments.Datum.Basic

namespace DocComments.Json

/-- A hexadecimal digit in lower case. -/
def hexDigit (value : Nat) : Char :=
  if Nat.blt value 10 then Char.ofNat (0x30 + value) else Char.ofNat (0x57 + value)

/-- A character as it stands inside a quoted text. -/
def escape (c : Char) : List Char :=
  if c == '"' then ['\\', '"']
  else if c == '\\' then ['\\', '\\']
  else if c == '\n' then ['\\', 'n']
  else if c == '\r' then ['\\', 'r']
  else if c == '\t' then ['\\', 't']
  else if c.toNat == 0x08 then ['\\', 'b']
  else if c.toNat == 0x0C then ['\\', 'f']
  else if Nat.blt c.toNat 0x20 then
    ['\\', 'u', '0', '0', hexDigit (c.toNat / 16), hexDigit (c.toNat % 16)]
  else [c]

/-- A quoted text. -/
def quote (value : String) : String :=
  "\"" ++ String.ofList (value.toList.flatMap escape) ++ "\""

mutual

/-- The datum without white space. Data that are only ever read are written as null. -/
def compact : Datum → String
  | .null => "null"
  | .boolean value => if value then "true" else "false"
  | .integer value => toString value
  | .fraction => "null"
  | .moment => "null"
  | .text value => quote value
  | .array items => "[" ++ String.intercalate "," (compactItems items) ++ "]"
  | .table fields => "\x7b" ++ String.intercalate "," (compactFields fields) ++ "\x7d"

def compactItems : List Datum → List String
  | [] => []
  | item :: items => compact item :: compactItems items

def compactFields : List (String × Datum) → List String
  | [] => []
  | (name, datum) :: fields => (quote name ++ ":" ++ compact datum) :: compactFields fields

end

/-- The line break and indentation before something at this depth. -/
def newLine (depth : Nat) : String :=
  "\n" ++ String.ofList (List.replicate (2 * depth) ' ')

mutual

/-- The datum in the indented layout, its own brackets at `depth`. -/
def indented (depth : Nat) : Datum → String
  | .null => "null"
  | .boolean value => if value then "true" else "false"
  | .integer value => toString value
  | .fraction => "null"
  | .moment => "null"
  | .text value => quote value
  | .array [] => "[]"
  | .array (item :: items) =>
    "[" ++ String.intercalate "," (indentedItems (depth + 1) (item :: items)) ++ newLine depth
      ++ "]"
  | .table [] => "\x7b\x7d"
  | .table (field :: fields) =>
    "\x7b" ++ String.intercalate "," (indentedFields (depth + 1) (field :: fields))
      ++ newLine depth ++ "\x7d"

def indentedItems (depth : Nat) : List Datum → List String
  | [] => []
  | item :: items => (newLine depth ++ indented depth item) :: indentedItems depth items

def indentedFields (depth : Nat) : List (String × Datum) → List String
  | [] => []
  | (name, datum) :: fields =>
    (newLine depth ++ quote name ++ ": " ++ indented depth datum)
      :: indentedFields depth fields

end

/-- The datum as an indented document. -/
def pretty (datum : Datum) : String :=
  indented 0 datum

end DocComments.Json
