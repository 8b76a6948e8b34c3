/-
This file reads JSON.

A text is one value with white space around it and nothing else. Fields keep their order, and a
field that occurs twice is there twice. A number without fraction and exponent is an integer
when 64 bits can hold it; all other numbers, minus zero included, are fractions. Every round of
the reader consumes a character, so the length of the text bounds it.
-/

import DocComments.Datum.Basic
import DocComments.Text.Digits

namespace DocComments.Json

/-- The white space of JSON. -/
def isSpace (c : Char) : Bool :=
  c == ' ' || c == '\t' || c == '\n' || c == '\r'

/-- A number of four hexadecimal digits. -/
def fourDigits? (a b c d : Char) : Option Nat :=
  Text.hexNumber? [a, b, c, d]

/-- The rest of a quoted text, after its opening quote, and what follows the closing quote.
Two escaped surrogates make one character; a lone one is refused. -/
def readQuoted? : List Char → Option (List Char × List Char)
  | [] => none
  | '"' :: rest => some ([], rest)
  | '\\' :: 'u' :: a :: b :: c :: d :: rest =>
    match fourDigits? a b c d with
    | none => none
    | some code =>
      if Nat.ble 0xD800 code && Nat.blt code 0xDC00 then
        match rest with
        | '\\' :: 'u' :: a :: b :: c :: d :: rest =>
          match fourDigits? a b c d with
          | none => none
          | some low =>
            if Nat.ble 0xDC00 low && Nat.blt low 0xE000 then
              (readQuoted? rest).map fun (text, rest) =>
                (Char.ofNat (0x10000 + (code - 0xD800) * 0x400 + (low - 0xDC00)) :: text, rest)
            else
              none
        | _ => none
      else
        match Text.character? code with
        | none => none
        | some c => (readQuoted? rest).map fun (text, rest) => (c :: text, rest)
  | '\\' :: c :: rest =>
    let escaped (c : Char) := (readQuoted? rest).map fun (text, rest) => (c :: text, rest)
    match c with
    | '"' => escaped '"'
    | '\\' => escaped '\\'
    | '/' => escaped '/'
    | 'b' => escaped (Char.ofNat 0x08)
    | 'f' => escaped (Char.ofNat 0x0C)
    | 'n' => escaped '\n'
    | 'r' => escaped '\r'
    | 't' => escaped '\t'
    | _ => none
  | c :: rest =>
    if Nat.blt c.toNat 0x20 || c == '\\' then
      none
    else
      (readQuoted? rest).map fun (text, rest) => (c :: text, rest)

/-- The digits of an integer part: a single zero, or digits that do not start with one. -/
def readInteger? (text : List Char) : Option (List Char × List Char) :=
  match text.takeWhile Char.isDigit with
  | [] => none
  | ['0'] => some (['0'], text.dropWhile Char.isDigit)
  | '0' :: _ => none
  | digits => some (digits, text.dropWhile Char.isDigit)

/-- A fraction part, if there is one: whether there is, and the rest. -/
def readFraction? : List Char → Option (Bool × List Char)
  | '.' :: rest =>
    if (rest.takeWhile Char.isDigit).isEmpty then none
    else some (true, rest.dropWhile Char.isDigit)
  | rest => some (false, rest)

/-- An exponent, if there is one: whether there is, and the rest. -/
def readExponent? : List Char → Option (Bool × List Char)
  | c :: rest =>
    if c == 'e' || c == 'E' then
      let rest := match rest with
        | '+' :: rest => rest
        | '-' :: rest => rest
        | rest => rest
      if (rest.takeWhile Char.isDigit).isEmpty then none
      else some (true, rest.dropWhile Char.isDigit)
    else
      some (false, c :: rest)
  | [] => some (false, [])

/-- An integer that 64 bits hold, with a sign or without; anything else is a fraction. -/
def integerDatum (negative : Bool) (magnitude : Nat) : Datum :=
  if negative then
    if magnitude == 0 || Nat.blt 9223372036854775808 magnitude then .fraction
    else .integer (-(Int.ofNat magnitude))
  else if Nat.blt 18446744073709551615 magnitude then .fraction
  else .integer (Int.ofNat magnitude)

/-- A number. -/
def readNumber? (text : List Char) : Option (Datum × List Char) := do
  let (negative, rest) := match text with
    | '-' :: rest => (true, rest)
    | rest => (false, rest)
  let (digits, rest) ← readInteger? rest
  let (fraction, rest) ← readFraction? rest
  let (exponent, rest) ← readExponent? rest
  if fraction || exponent then
    return (.fraction, rest)
  else
    return (integerDatum negative (Text.decimal digits), rest)

mutual

/-- A value, after its leading white space. -/
def readValue? : Nat → List Char → Option (Datum × List Char)
  | 0, _ => none
  | bound + 1, text =>
    match text with
    | 'n' :: 'u' :: 'l' :: 'l' :: rest => some (.null, rest)
    | 't' :: 'r' :: 'u' :: 'e' :: rest => some (.boolean true, rest)
    | 'f' :: 'a' :: 'l' :: 's' :: 'e' :: rest => some (.boolean false, rest)
    | '"' :: rest =>
      (readQuoted? rest).map fun (value, rest) => (.text (String.ofList value), rest)
    | '[' :: rest =>
      match rest.dropWhile isSpace with
      | ']' :: rest => some (.array [], rest)
      | rest => (readItems? bound rest).map fun (items, rest) => (.array items, rest)
    | '{' :: rest =>
      match rest.dropWhile isSpace with
      | '}' :: rest => some (.table [], rest)
      | rest => (readFields? bound rest).map fun (fields, rest) => (.table fields, rest)
    | text => readNumber? text

/-- The items of an array up to its closing bracket. -/
def readItems? : Nat → List Char → Option (List Datum × List Char)
  | 0, _ => none
  | bound + 1, text =>
    match readValue? bound (text.dropWhile isSpace) with
    | none => none
    | some (item, rest) =>
      match rest.dropWhile isSpace with
      | ',' :: rest => (readItems? bound rest).map fun (items, rest) => (item :: items, rest)
      | ']' :: rest => some ([item], rest)
      | _ => none

/-- The fields of a table up to its closing brace. -/
def readFields? : Nat → List Char → Option (List (String × Datum) × List Char)
  | 0, _ => none
  | bound + 1, text =>
    match text.dropWhile isSpace with
    | '"' :: rest =>
      match readQuoted? rest with
      | none => none
      | some (name, rest) =>
        match rest.dropWhile isSpace with
        | ':' :: rest =>
          match readValue? bound (rest.dropWhile isSpace) with
          | none => none
          | some (datum, rest) =>
            match rest.dropWhile isSpace with
            | ',' :: rest =>
              (readFields? bound rest).map fun (fields, rest) =>
                ((String.ofList name, datum) :: fields, rest)
            | '}' :: rest => some ([(String.ofList name, datum)], rest)
            | _ => none
        | _ => none
    | _ => none

end

/-- Reads a JSON text. The result is `none` for a text that is not one value. -/
def read? (text : List Char) : Option Datum := do
  let (datum, rest) ← readValue? (2 * text.length + 2) (text.dropWhile isSpace)
  if (rest.dropWhile isSpace).isEmpty then return datum else none

end DocComments.Json
