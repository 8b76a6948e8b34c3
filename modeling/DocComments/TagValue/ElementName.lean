/-
This file reads the name of an element.

The value of an element tag is a name and perhaps a title in double quotes, which may stand
anywhere. The first pair of quotes is taken out with the title between them; the name is the
first word of what is left.
-/

import DocComments.Text.Pieces
import DocComments.Text.WhiteSpace

namespace DocComments.TagValue

/-- A declared name, which may be relative, and the title that goes with it. -/
structure ElementName where
  declared : List Char
  title : Option (List Char)
deriving DecidableEq, Repr

/-- The text before, inside and after the first pair of double quotes. -/
def quoted? (value : List Char) : Option (List Char × List Char × List Char) := do
  let (before, rest) ← Text.splitFirst? '"' value
  let (inside, after) ← Text.splitFirst? '"' rest
  return (before, inside, after)

/-- A title counts only if there is something in it. -/
def titleOf (inside : List Char) : Option (List Char) :=
  let title := Text.trim inside
  if title.isEmpty then none else some title

/-- Reads the value of an element tag. There is no element without a name. -/
def elementName? (value : List Char) : Option ElementName :=
  match quoted? value with
  | some (before, inside, after) =>
    (Text.firstWord? (before ++ ' ' :: after)).map fun name => ⟨name, titleOf inside⟩
  | none => (Text.firstWord? value).map fun name => ⟨name, none⟩

end DocComments.TagValue
