/-
This file measures texts in UTF-8 bytes.

Places in a source are reported as byte offsets, while the program itself counts characters.
The two meet here: the byte length of a text, the cut of a text at a byte offset (which exists
only between two characters), and spans of bytes.
-/

namespace DocComments.Text

/-- The number of bytes of the text in UTF-8. -/
def byteLength : List Char → Nat
  | [] => 0
  | c :: rest => c.utf8Size + byteLength rest

/-- Cuts the text at a byte offset. There is no cut behind the end or inside a character. -/
def splitAtByte? : Nat → List Char → Option (List Char × List Char)
  | offset, [] => if offset == 0 then some ([], []) else none
  | offset, c :: rest =>
    if offset == 0 then
      some ([], c :: rest)
    else if Nat.ble c.utf8Size offset then
      (splitAtByte? (offset - c.utf8Size) rest).map fun (before, after) => (c :: before, after)
    else
      none

end DocComments.Text

namespace DocComments

/-- A range of bytes of a source, its end not before its start. -/
structure Span where
  start : Nat
  stop : Nat
  ordered : start ≤ stop
deriving DecidableEq, Repr

namespace Span

/-- The span between two offsets; an end before the start is moved to the start. -/
def between (start stop : Nat) : Span :=
  ⟨start, max start stop, Nat.le_max_left start stop⟩

/-- The number of bytes covered. -/
def length (span : Span) : Nat :=
  span.stop - span.start

def isEmpty (span : Span) : Bool :=
  span.start == span.stop

/-- The written form `start..stop`. -/
def render (span : Span) : String :=
  s!"{span.start}..{span.stop}"

/-- The part of the text that the span covers, if both its ends lie between characters. -/
def slice? (span : Span) (text : List Char) : Option (List Char) := do
  let (_, rest) ← Text.splitAtByte? span.start text
  let (part, _) ← Text.splitAtByte? span.length rest
  return part

end Span

/-- A range of characters of a text, as a search reports it. -/
structure Range where
  start : Nat
  stop : Nat
deriving DecidableEq, Repr

namespace Range

/-- The characters of the text in the range. -/
def slice (range : Range) (text : List Char) : List Char :=
  (text.take range.stop).drop range.start

/-- The range in bytes. -/
def bytes (range : Range) (text : List Char) : Nat × Nat :=
  (Text.byteLength (text.take range.start), Text.byteLength (text.take range.stop))

end Range

end DocComments
