/-
This file finds the comment blocks of a source.

The source is read line by line. Outside a block a line may open one; the rest of that line may
already close it, and otherwise the block runs to the first later line that closes it. A block
that is never closed is dropped. Delimiters are searched in one line at a time, without its
line end, so nothing but the line itself decides what is found in it.

The text of a block is what stands between the delimiters, stripped line by line. Without a set
of prefix characters, as many characters are removed from the start of every line after the
first as the opening delimiter ends at, so that indentation inside the block survives. With
such a set, every line loses blanks, then prefix characters, then blanks again, at both ends.
-/

import DocComments.Text.Bytes
import DocComments.Text.WhiteSpace

namespace DocComments

/-! ### Lines -/

/-- The lines of a text, each with its line feed; the last line may lack one, and there is no
empty last line. -/
def splitLines : List Char → List (List Char)
  | [] => []
  | c :: rest =>
    if c == '\n' then
      [c] :: splitLines rest
    else
      match splitLines rest with
      | [] => [[c]]
      | line :: lines => (c :: line) :: lines

/-- Removes one character from the end of a text if it is this one. -/
def dropFinal (final : Char) (text : List Char) : List Char :=
  if text.getLast? == some final then text.dropLast else text

/-- A line without its line feed and without the carriage return before it. -/
def lineContent (line : List Char) : List Char :=
  dropFinal '\r' (dropFinal '\n' line)

/-! ### Blocks -/

/-- A comment block: its first and last line counted from one, the bytes from the start of the
first line to the end of the last, and its stripped text. -/
structure Block where
  startLine : Nat
  endLine : Nat
  span : Span
  text : List Char
deriving DecidableEq, Repr

/-- How blocks are found: the searches for the opening and the closing delimiter in a line, and
the prefix characters of lines, if any. -/
structure Scanner where
  opens : List Char → Option Range
  closes : List Char → Option Range
  linePrefix : Option (List Char)

/-- Where a scan stands: outside of blocks, or inside a block that starts at this line and byte
offset, with the column to strip and the text so far. -/
inductive ScanState where
  | outside
  | inside (startLine startOffset column : Nat) (text : List Char)

namespace Scanner

/-- Strips one line of a block. -/
def strip (scanner : Scanner) (column : Nat) (line : List Char) : List Char :=
  match scanner.linePrefix with
  | some chars =>
    Text.trimWith Text.isBlank (Text.trimWith chars.contains (Text.trimWith Text.isBlank line))
  | none => Text.dropTail Text.isBlank (line.drop column)

/-- A line of block text with its line feed. A closing line that is stripped to nothing adds
nothing. -/
def closingText (line : List Char) : List Char :=
  if line.isEmpty then [] else line ++ ['\n']

/-- The blocks of the lines from here on, where the first of them has this number and starts at
this byte offset. -/
def scanLines (scanner : Scanner) : Nat → Nat → ScanState → List (List Char) → List Block
  | _, _, _, [] => []
  | number, offset, state, line :: lines =>
    let content := lineContent line
    let stop := offset + Text.byteLength content
    let next := offset + Text.byteLength line
    match state with
    | .outside =>
      match scanner.opens content with
      | none => scanLines scanner (number + 1) next .outside lines
      | some opening =>
        let rest := content.drop opening.stop
        match scanner.closes rest with
        | some closing =>
          let text := (scanner.strip 0 (rest.take closing.start)).dropWhile Text.isBlank
          ⟨number, number, Span.between offset stop, closingText text⟩
            :: scanLines scanner (number + 1) next .outside lines
        | none =>
          let text := scanner.strip 0 rest ++ ['\n']
          scanLines scanner (number + 1) next (.inside number offset opening.stop text) lines
    | .inside startLine startOffset column text =>
      match scanner.closes content with
      | some closing =>
        let last := scanner.strip column (content.take closing.start)
        ⟨startLine, number, Span.between startOffset stop, text ++ closingText last⟩
          :: scanLines scanner (number + 1) next .outside lines
      | none =>
        let text := text ++ (scanner.strip column content ++ ['\n'])
        scanLines scanner (number + 1) next (.inside startLine startOffset column text) lines

/-- The blocks of a source, in order. -/
def scan (scanner : Scanner) (source : List Char) : List Block :=
  scanner.scanLines 1 0 .outside (splitLines source)

end Scanner

end DocComments
