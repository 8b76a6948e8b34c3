/-
This file gives maps that remember the order in which their keys first came.

A map is a list of keys with their values. Changing the value of a key leaves the key in its
place, and a new key goes to the end, so the keys stand in the order of their first use and
each of them stands there once.
-/

namespace DocComments

/-- The entries of an ordered map. -/
abbrev Entries (κ α : Type) := List (κ × α)

namespace Entries

variable {κ α : Type} [BEq κ]

/-- The value of a key. -/
def get? : Entries κ α → κ → Option α
  | [], _ => none
  | (other, value) :: entries, key => if other == key then some value else get? entries key

/-- Gives a key a new value, which may depend on the value it had. -/
def alter (change : Option α → α) : Entries κ α → κ → Entries κ α
  | [], key => [(key, change none)]
  | (other, value) :: entries, key =>
    if other == key then (other, change (some value)) :: entries
    else (other, value) :: alter change entries key

/-- Gives a key a value. -/
def set (entries : Entries κ α) (key : κ) (value : α) : Entries κ α :=
  alter (fun _ => value) entries key

/-- The keys in order. -/
def keys (entries : Entries κ α) : List κ :=
  entries.map (·.1)

/-- The map that arises by setting these keys one after the other. -/
def ofList (pairs : List (κ × α)) : Entries κ α :=
  pairs.foldl (fun entries pair => set entries pair.1 pair.2) []

end Entries

end DocComments
