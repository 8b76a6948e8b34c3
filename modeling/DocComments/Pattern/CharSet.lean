/-
This file describes sets of characters, the atoms of a pattern.

A set is built from ranges and named Unicode properties by union, intersection and complement.
Matching without regard to case closes a set under case variants, and it does so before a
complement is taken: what is outside the closed set stays outside in every case.
-/

import DocComments.Text.WhiteSpace
import DocComments.Text.Word
import DocComments.Text.CaseFolding

namespace DocComments

/-- The Unicode properties that a pattern can name. -/
inductive CharProperty where
  | whiteSpace
  | word
  | alphabetic
  | letter
  | mark
  | number
  | decimalDigit
  | letterNumber
  | otherNumber
  | connector
deriving DecidableEq, Repr

/-- Whether the character has the property. -/
def CharProperty.holds : CharProperty → Char → Bool
  | .whiteSpace, c => Text.isWhiteSpace c
  | .word, c => Text.isWordCharacter c
  | .alphabetic, c => Text.isAlphabetic c
  | .letter, c => Text.isLetter c
  | .mark, c => Text.isMark c
  | .number, c => Text.isNumeric c
  | .decimalDigit, c => Text.isDecimalDigit c
  | .letterNumber, c => Text.inRuns Text.letterNumberBounds c.toNat
  | .otherNumber, c => Text.inRuns Text.otherNumberBounds c.toNat
  | .connector, c => Text.isConnector c

/-- A set of characters. -/
inductive CharSet where
  | empty
  | range (first last : Char)
  | property (named : CharProperty)
  | complement (set : CharSet)
  | union (first second : CharSet)
  | intersection (first second : CharSet)
  | caseless (set : CharSet)
deriving DecidableEq, Repr

namespace CharSet

/-- Whether the character is in the set. -/
def contains : CharSet → Char → Bool
  | .empty, _ => false
  | .range first last, c => Nat.ble first.toNat c.toNat && Nat.ble c.toNat last.toNat
  | .property named, c => named.holds c
  | .complement set, c => !set.contains c
  | .union first second, c => first.contains c || second.contains c
  | .intersection first second, c => first.contains c && second.contains c
  | .caseless set, c => (Text.caseVariants c).any set.contains

/-- The set of one character. -/
def single (c : Char) : CharSet :=
  .range c c

/-- Every character. -/
def any : CharSet :=
  .complement .empty

/-- The characters of `first` that are not in `second`. -/
def difference (first second : CharSet) : CharSet :=
  .intersection first (.complement second)

/-- The characters in exactly one of the two sets. -/
def symmetricDifference (first second : CharSet) : CharSet :=
  .union (first.difference second) (second.difference first)

/-- The set, closed under case variants when case is to be ignored. -/
def fold (ignoreCase : Bool) (set : CharSet) : CharSet :=
  if ignoreCase then .caseless set else set

/-- The set, or everything else when `negated`. -/
def negate (negated : Bool) (set : CharSet) : CharSet :=
  if negated then .complement set else set

end CharSet

end DocComments
