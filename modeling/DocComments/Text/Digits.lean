/-
This file reads numbers from digits: decimal, hexadecimal, and characters given by the number
of their code point.
-/

namespace DocComments.Text

/-- The number that decimal digits write. -/
def decimal (digits : List Char) : Nat :=
  digits.foldl (fun value digit => value * 10 + (digit.toNat - 0x30)) 0

/-- The value of a hexadecimal digit. -/
def hexValue? (c : Char) : Option Nat :=
  let code := c.toNat
  if Nat.ble 0x30 code && Nat.ble code 0x39 then some (code - 0x30)
  else if Nat.ble 0x41 code && Nat.ble code 0x46 then some (code - 0x37)
  else if Nat.ble 0x61 code && Nat.ble code 0x66 then some (code - 0x57)
  else none

/-- The number that hexadecimal digits write; there must be at least one. -/
def hexNumber? (digits : List Char) : Option Nat :=
  if digits.isEmpty then
    none
  else
    digits.foldlM (fun value digit => (hexValue? digit).map (value * 16 + ·)) 0

/-- The character with this code point; surrogates and numbers out of range have none. -/
def character? (code : Nat) : Option Char :=
  if Nat.blt code 0xD800 || (Nat.blt 0xDFFF code && Nat.blt code 0x110000) then
    some (Char.ofNat code)
  else
    none

end DocComments.Text
