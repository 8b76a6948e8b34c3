/-
This file reads type annotations.

A type is a text that may refer to documented elements. A text that starts with a number sign
is itself the path of an element. In any other text, a path between an opening brace with a
number sign and the next closing brace is a reference, shown without its marks; the first
reference is the one that counts.
-/

import DocComments.Attribute.Basic
import DocComments.Text.Pieces
import DocComments.Text.WhiteSpace

namespace DocComments.TagValue

/-- Cuts around the first reference in a text: what stands before it, its path, and what stands
after it. -/
def splitReference? (text : List Char) : Option (List Char × List Char × List Char) := do
  let (before, rest) ← Text.splitFirstPair? '{' '#' text
  let (path, after) ← Text.splitFirst? '}' rest
  return (before, path, after)

/-- The text to show for a type, with at most `bound` references, and the paths of the
references. -/
def showReferences : Nat → List Char → List Char × List (List Char)
  | 0, text => (text, [])
  | bound + 1, text =>
    match splitReference? text with
    | none => (text, [])
    | some (before, path, after) =>
      let (shown, paths) := showReferences bound after
      (before ++ path ++ shown, path :: paths)

/-- The type that a text annotates. Every reference takes up characters, so their number is
below the length of the text. -/
def typeRef (text : List Char) : TypeRef :=
  match Text.trim text with
  | '#' :: path => ⟨String.ofList path, some (String.ofList path)⟩
  | text =>
    let (shown, paths) := showReferences text.length text
    ⟨String.ofList shown, paths.head?.map String.ofList⟩

end DocComments.TagValue
