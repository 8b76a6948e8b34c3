/-
This file reads TOML, version 1.1.

A document is a sequence of lines that are blank, a header, or a key with its value; comments
may end any of them. Texts come in four forms, quoted by double or single quotes, on one line
or on several. Inline tables may span lines and end with a comma. Every round of the reader
consumes a character, so the length of the text bounds it.
-/

import DocComments.Datum.Toml
import DocComments.Text.Digits
import DocComments.Text.WhiteSpace

namespace DocComments.Toml

/-! ### Lines -/

/-- Whether the character may stand in a comment or a quoted text: no control character but the
tab. -/
def isPrintable (c : Char) : Bool :=
  c == '\t' || (Nat.ble 0x20 c.toNat && c.toNat != 0x7F)

/-- A line break at the head of the text. -/
def readNewline? : List Char → Option (List Char)
  | '\n' :: rest => some rest
  | '\r' :: '\n' :: rest => some rest
  | _ => none

/-- Skips a comment up to the line break that ends it. -/
def skipComment : List Char → List Char
  | '#' :: rest => rest.dropWhile isPrintable
  | text => text

/-- The end of a line: blanks, a comment, and a line break or the end of the document. -/
def readLineEnd? (text : List Char) : Option (List Char) :=
  match skipComment (text.dropWhile Text.isBlank) with
  | [] => some []
  | rest => readNewline? rest

/-- Skips blanks, line breaks and comments. -/
def skipGap : Nat → List Char → List Char
  | 0, text => text
  | bound + 1, text =>
    let rest := skipComment (text.dropWhile Text.isBlank)
    match readNewline? rest with
    | some rest => skipGap bound rest
    | none => rest

/-! ### Quoted texts -/

/-- The escape after a backslash: the character it stands for. -/
def readEscape? : List Char → Option (Char × List Char)
  | [] => none
  | c :: rest =>
    let hex (width : Nat) : Option (Char × List Char) := do
      let digits := rest.take width
      if digits.length == width then
        let code ← Text.hexNumber? digits
        let c ← Text.character? code
        return (c, rest.drop width)
      else
        none
    match c with
    | 'b' => some (Char.ofNat 0x08, rest)
    | 't' => some ('\t', rest)
    | 'n' => some ('\n', rest)
    | 'f' => some (Char.ofNat 0x0C, rest)
    | 'r' => some ('\r', rest)
    | 'e' => some (Char.ofNat 0x1B, rest)
    | '"' => some ('"', rest)
    | '\\' => some ('\\', rest)
    | 'x' => hex 2
    | 'u' => hex 4
    | 'U' => hex 8
    | _ => none

/-- A text in double quotes on one line, after the opening quote. -/
def readBasic? : Nat → List Char → Option (List Char × List Char)
  | 0, _ => none
  | bound + 1, text =>
    match text with
    | [] => none
    | '"' :: rest => some ([], rest)
    | '\\' :: rest =>
      match readEscape? rest with
      | none => none
      | some (c, rest) => (readBasic? bound rest).map fun (value, rest) => (c :: value, rest)
    | c :: rest =>
      if isPrintable c then
        (readBasic? bound rest).map fun (value, rest) => (c :: value, rest)
      else
        none

/-- A text in single quotes on one line, after the opening quote. -/
def readLiteral? (text : List Char) : Option (List Char × List Char) := do
  let (value, rest) ← Text.splitFirst? '\'' text
  if value.all isPrintable then some (value, rest) else none

/-- The quotes at the head of a text on several lines. Three of them close it, and up to two
more that stand before those belong to it. -/
def readClosing? (quote : Char) (text : List Char) : Option (List Char × List Char) :=
  let count := (text.takeWhile (· == quote)).length
  if Nat.blt count 3 then
    none
  else
    let kept := min (count - 3) 2
    some (List.replicate kept quote, text.drop (kept + 3))

/-- A backslash at the end of a line, and all the white space after it. -/
def readContinuation? (text : List Char) : Option (List Char) :=
  (readNewline? (text.dropWhile Text.isBlank)).map fun rest =>
    rest.dropWhile Text.isSeparator

/-- A text on several lines, after the opening quotes. Only a text in double quotes has
escapes. -/
def readLines? (quote : Char) : Nat → List Char → Option (List Char × List Char)
  | 0, _ => none
  | bound + 1, text =>
    match readClosing? quote text with
    | some closed => some closed
    | none =>
      match text with
      | [] => none
      | '\r' :: '\n' :: rest =>
        (readLines? quote bound rest).map fun (value, rest) => ('\r' :: '\n' :: value, rest)
      | c :: rest =>
        if c == '\\' && quote == '"' then
          match readContinuation? rest with
          | some rest => readLines? quote bound rest
          | none =>
            match readEscape? rest with
            | none => none
            | some (c, rest) =>
              (readLines? quote bound rest).map fun (value, rest) => (c :: value, rest)
        else if isPrintable c || c == '\n' then
          (readLines? quote bound rest).map fun (value, rest) => (c :: value, rest)
        else
          none

/-- A line break right after the opening quotes does not belong to the text. -/
def dropFirstNewline (text : List Char) : List Char :=
  (readNewline? text).getD text

/-! ### Numbers and moments -/

/-- Digits of one kind with single underscores between them, at least one digit. -/
def isDigits (digit : Char → Bool) (text : List Char) : Bool :=
  (Text.splitOn '_' text).all fun part => !part.isEmpty && part.all digit

/-- Removes a sign: whether the sign is a minus, and the rest. -/
def readSign : List Char → Bool × List Char
  | '-' :: rest => (true, rest)
  | '+' :: rest => (false, rest)
  | rest => (false, rest)

/-- Decimal digits that do not start with a superfluous zero. -/
def isDecimalInteger (text : List Char) : Bool :=
  isDigits Char.isDigit text && (text == ['0'] || text.head? != some '0')

/-- The number that digits of a base write; underscores do not count. -/
def numberInBase (base : Nat) (text : List Char) : Nat :=
  (text.filterMap Text.hexValue?).foldl (fun value digit => value * base + digit) 0

/-- An integer: decimal with a sign or without, or in base sixteen, eight or two. -/
def integer? (text : List Char) : Option Int :=
  match text with
  | '0' :: 'x' :: digits =>
    if isDigits (fun c => (Text.hexValue? c).isSome) digits then
      some (Int.ofNat (numberInBase 16 digits))
    else
      none
  | '0' :: 'o' :: digits =>
    if isDigits (fun c => Nat.ble 0x30 c.toNat && Nat.ble c.toNat 0x37) digits then
      some (Int.ofNat (numberInBase 8 digits))
    else
      none
  | '0' :: 'b' :: digits =>
    if isDigits (fun c => c == '0' || c == '1') digits then
      some (Int.ofNat (numberInBase 2 digits))
    else
      none
  | text =>
    let (negative, digits) := readSign text
    if isDecimalInteger digits then
      let magnitude := Int.ofNat (numberInBase 10 digits)
      some (if negative then -magnitude else magnitude)
    else
      none

/-- An exponent after its letter. -/
def isExponent (text : List Char) : Bool :=
  isDigits Char.isDigit (readSign text).2

/-- A number with a fraction, an exponent or both, or infinity, or no number at all. -/
def isFraction (text : List Char) : Bool :=
  let body := (readSign text).2
  if body == ['i', 'n', 'f'] || body == ['n', 'a', 'n'] then
    true
  else
    let mantissa := body.takeWhile fun c => c != 'e' && c != 'E'
    let exponent := body.drop mantissa.length
    let exponentFits := match exponent with
      | [] => true
      | _ :: digits => isExponent digits
    match Text.splitOn '.' mantissa with
    | [whole] => isDecimalInteger whole && !exponent.isEmpty && exponentFits
    | [whole, fraction] =>
      isDecimalInteger whole && isDigits Char.isDigit fraction && exponentFits
    | _ => false

/-- The number of days of a month. -/
def daysIn (year month : Nat) : Nat :=
  if month == 2 then
    if (year % 4 == 0 && year % 100 != 0) || year % 400 == 0 then 29 else 28
  else if month == 4 || month == 6 || month == 9 || month == 11 then 30
  else 31

/-- So many decimal digits and nothing else, as a number. -/
def fixedDigits? (width : Nat) (text : List Char) : Option Nat :=
  if text.length == width && text.all Char.isDigit then some (Text.decimal text) else none

/-- A date: year, month and day. -/
def isDate (text : List Char) : Bool :=
  match Text.splitOn '-' text with
  | [year, month, day] =>
    match fixedDigits? 4 year, fixedDigits? 2 month, fixedDigits? 2 day with
    | some year, some month, some day =>
      Nat.ble 1 month && Nat.ble month 12 && Nat.ble 1 day && Nat.ble day (daysIn year month)
    | _, _, _ => false
  | _ => false

/-- A number of two digits, at most `most`. -/
def isClockPart (most : Nat) (text : List Char) : Bool :=
  match fixedDigits? 2 text with
  | some value => Nat.ble value most
  | none => false

/-- Hours and minutes, and then seconds that may have a fraction. -/
def isTime (text : List Char) : Bool :=
  match Text.splitOn ':' text with
  | [hours, minutes] => isClockPart 23 hours && isClockPart 59 minutes
  | [hours, minutes, seconds] =>
    isClockPart 23 hours && isClockPart 59 minutes
      && match Text.splitOn '.' seconds with
        | [whole] => isClockPart 60 whole
        | [whole, fraction] =>
          isClockPart 60 whole && !fraction.isEmpty && fraction.all Char.isDigit
        | _ => false
  | _ => false

/-- A time, which may be followed by its distance from universal time. -/
def isTimeWithOffset (text : List Char) : Bool :=
  let time := text.takeWhile fun c => c.isDigit || c == ':' || c == '.'
  let offset := text.drop time.length
  isTime time && match offset with
    | [] => true
    | ['Z'] => true
    | ['z'] => true
    | '+' :: clock => clock.length == 5 && isTime clock
    | '-' :: clock => clock.length == 5 && isTime clock
    | _ => false

/-- A date, a time, or a date and a time. -/
def isMoment (text : List Char) : Bool :=
  let date := text.take 10
  isTime text || isDate text
    || (isDate date && match text.drop 10 with
      | 'T' :: time => isTimeWithOffset time
      | 't' :: time => isTimeWithOffset time
      | ' ' :: time => isTimeWithOffset time
      | _ => false)

/-- Whether the character can belong to a number, a moment or a name without quotes. -/
def isAtomCharacter (c : Char) : Bool :=
  c.isAlphanum || c == '+' || c == '-' || c == '_' || c == '.' || c == ':'

/-- Takes the characters of a value that has no quotes or brackets. A date may go on after a
space when a digit follows. -/
def readAtom (text : List Char) : List Char × List Char :=
  let atom := text.takeWhile isAtomCharacter
  match text.dropWhile isAtomCharacter with
  | ' ' :: c :: rest =>
    if isDate atom && c.isDigit then
      (atom ++ ' ' :: (c :: rest).takeWhile isAtomCharacter,
        (c :: rest).dropWhile isAtomCharacter)
    else
      (atom, ' ' :: c :: rest)
  | rest => (atom, rest)

/-- The value that characters without quotes or brackets write. -/
def atomDatum? (atom : List Char) : Option Datum :=
  if atom == ['t', 'r', 'u', 'e'] then some (.boolean true)
  else if atom == ['f', 'a', 'l', 's', 'e'] then some (.boolean false)
  else
    match integer? atom with
    | some value => some (.integer value)
    | none =>
      if isFraction atom then some .fraction
      else if isMoment atom then some .moment
      else none

/-! ### Keys -/

/-- Whether the character may stand in a key without quotes. -/
def isBareKey (c : Char) : Bool :=
  c.isAlphanum || c == '_' || c == '-'

/-- One part of a key. -/
def readKeyPart? : List Char → Option (String × List Char)
  | '"' :: rest =>
    (readBasic? (rest.length + 1) rest).map fun (name, rest) => (String.ofList name, rest)
  | '\'' :: rest => (readLiteral? rest).map fun (name, rest) => (String.ofList name, rest)
  | text =>
    match text.takeWhile isBareKey with
    | [] => none
    | name => some (String.ofList name, text.dropWhile isBareKey)

/-- A key: parts with dots between them. -/
def readKey? : Nat → List Char → Option (List String × List Char)
  | 0, _ => none
  | bound + 1, text =>
    match readKeyPart? (text.dropWhile Text.isBlank) with
    | none => none
    | some (name, rest) =>
      match rest.dropWhile Text.isBlank with
      | '.' :: rest => (readKey? bound rest).map fun (names, rest) => (name :: names, rest)
      | rest => some ([name], rest)

/-! ### Values -/

mutual

/-- A value. -/
def readValue? : Nat → List Char → Option (Item × List Char)
  | 0, _ => none
  | bound + 1, text =>
    let plain (found : Option (List Char × List Char)) : Option (Item × List Char) :=
      found.map fun (value, rest) => (.plain (.text (String.ofList value)), rest)
    match text with
    | '"' :: '"' :: '"' :: rest =>
      plain (readLines? '"' (rest.length + 1) (dropFirstNewline rest))
    | '\'' :: '\'' :: '\'' :: rest =>
      plain (readLines? '\'' (rest.length + 1) (dropFirstNewline rest))
    | '"' :: rest => plain (readBasic? (rest.length + 1) rest)
    | '\'' :: rest => plain (readLiteral? rest)
    | '[' :: rest =>
      (readItems? bound rest).map fun (items, rest) => (.array items, rest)
    | '{' :: rest =>
      (readInline? bound ⟨.header, []⟩ rest).map fun (table, rest) =>
        (.table .inline table.fields, rest)
    | text =>
      let (atom, rest) := readAtom text
      (atomDatum? atom).map fun datum => (.plain datum, rest)

/-- The items of an array up to its closing bracket. -/
def readItems? : Nat → List Char → Option (List Item × List Char)
  | 0, _ => none
  | bound + 1, text =>
    match skipGap (text.length + 1) text with
    | ']' :: rest => some ([], rest)
    | text =>
      match readValue? bound text with
      | none => none
      | some (item, rest) =>
        match skipGap (rest.length + 1) rest with
        | ',' :: rest => (readItems? bound rest).map fun (items, rest) => (item :: items, rest)
        | ']' :: rest => some ([item], rest)
        | _ => none

/-- The fields of an inline table up to its closing brace, added to the table so far. -/
def readInline? : Nat → Table → List Char → Option (Table × List Char)
  | 0, _, _ => none
  | bound + 1, table, text =>
    match skipGap (text.length + 1) text with
    | '}' :: rest => some (table, rest)
    | text =>
      match readKey? (text.length + 1) text with
      | some (path, '=' :: rest) =>
        match readValue? bound (rest.dropWhile Text.isBlank) with
        | none => none
        | some (item, rest) =>
          match addField? path item table with
          | none => none
          | some table =>
            match skipGap (rest.length + 1) rest with
            | ',' :: rest => readInline? bound table rest
            | '}' :: rest => some (table, rest)
            | _ => none
      | _ => none

end

/-! ### Documents -/

/-- The rest of a header after its opening brackets: the key, and what follows the brackets
that close it. -/
def readHeader? (closing : List Char) (text : List Char) : Option (List String × List Char) := do
  let (path, rest) ← readKey? (text.length + 1) text
  if closing.isPrefixOf rest then some (path, rest.drop closing.length) else none

/-- A key with its value. -/
def readField? (text : List Char) : Option (List String × Item × List Char) :=
  match readKey? (text.length + 1) text with
  | some (path, '=' :: rest) =>
    (readValue? (2 * rest.length + 2) (rest.dropWhile Text.isBlank)).map fun (item, rest) =>
      (path, item, rest)
  | _ => none

/-- Reads the lines of a document. The header in force says where keys add their fields. -/
def readDocument? : Nat → List String → Table → List Char → Option Table
  | 0, _, _, _ => none
  | bound + 1, header, table, text =>
    match text.dropWhile Text.isBlank with
    | [] => some table
    | '[' :: '[' :: rest => do
      let (path, rest) ← readHeader? [']', ']'] rest
      let table ← openElement? path table
      let rest ← readLineEnd? rest
      readDocument? bound path table rest
    | '[' :: rest => do
      let (path, rest) ← readHeader? [']'] rest
      let table ← openTable? path table
      let rest ← readLineEnd? rest
      readDocument? bound path table rest
    | c :: rest =>
      if c == '#' || c == '\n' || c == '\r' then do
        let rest ← readLineEnd? (c :: rest)
        readDocument? bound header table rest
      else do
        let (path, item, rest) ← readField? (c :: rest)
        let table ← change? false (addField? path item) header table
        let rest ← readLineEnd? rest
        readDocument? bound header table rest

/-- Reads a TOML document, which a byte order mark may precede. The result is `none` for a text
that is not one. -/
def read? (text : List Char) : Option Datum :=
  let text := match text with
    | c :: rest => if c.toNat == 0xFEFF then rest else c :: rest
    | [] => []
  (readDocument? (text.length + 1) [] .root text).map fun table => table.item.datum

end DocComments.Toml
