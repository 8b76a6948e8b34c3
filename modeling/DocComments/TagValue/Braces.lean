/-
This file reads text in braces.

Braces nest: the text that an opening brace starts ends at the first closing brace that closes
no other one in between. The reader counts the braces that are open, and the bytes that it has
read, until no brace is open; there it cuts the text.
-/

import DocComments.Text.Bytes

namespace DocComments.TagValue

/-- How far a text in braces was read: the number of braces that are open, and the offset in bytes
of the next character. -/
structure BraceCount where
  -- an integer: that no more braces are closed than opened is up to the reader, not to the type
  depth : Int
  offset : Nat
deriving DecidableEq, Repr

namespace BraceCount

/-- The count behind the brace that opens the text. -/
def start : BraceCount := ⟨1, 0⟩

/-- The number of open braces behind a character. -/
def depthAfter (count : BraceCount) (c : Char) : Int :=
  match c with
  | '{' => count.depth + 1
  | '}' => count.depth - 1
  | _ => count.depth

/-- Reads a character. A closing brace behind which no brace is open stops the reader, at the
offset of that brace. -/
def read (count : BraceCount) (c : Char) : Except BraceCount BraceCount :=
  let depth := count.depthAfter c
  if c == '}' && depth == 0 then
    .error ⟨depth, count.offset⟩
  else
    .ok ⟨depth, count.offset + c.utf8Size⟩

end BraceCount

/-- Reads a text behind the brace that opens it: where the reader stops, or how far it comes. -/
def countBraces (text : List Char) : Except BraceCount BraceCount :=
  text.foldlM BraceCount.read BraceCount.start

/-- What stands before and behind the brace at an offset. -/
def aroundBrace? (offset : Nat) (text : List Char) : Option (List Char × List Char) := do
  let (body, _) ← Text.splitAtByte? offset text
  let (_, rest) ← Text.splitAtByte? (offset + 1) text
  return (body, rest)

/-- Reads a text in braces at the head of an input: the text, if there is one, and the input that
is left. Without such a text nothing is taken away. -/
def readBraced (input : List Char) : Option (List Char) × List Char :=
  match input with
  | '{' :: text =>
    match countBraces text with
    | .error closing =>
      match aroundBrace? closing.offset text with
      | some (body, rest) => (some body, rest)
      | none => (none, input)
    | .ok _ => (none, input)
  | _ => (none, input)

/-- The text in the braces at the head of a value, and what follows them. -/
def braced? (value : List Char) : Option (List Char × List Char) :=
  match readBraced value with
  | (some body, rest) => some (body, rest)
  | (none, _) => none

end DocComments.TagValue
